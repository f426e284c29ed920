import Mathlib.Tactic.Linarith
import Mathlib.Tactic.Positivity
import Mprtp.Lib.Pick
import Mprtp.Sender.Paths

/-! The subflows that `select_subflow` can return, and those of a sender that has not calculated a
distribution yet. -/
namespace Mprtp

/-- What the choice of a subflow goes by, and the interface it leads to. -/
def Subflow.choice (sf : Subflow) : ExtRat × ℕ := (sf.percentage, sf.iface)

theorem Subflow.sendto_choice (sf : Subflow) (data : List UInt8) (len : UInt32) (rtcp : Bool) (ret : ℤ) :
    (sf.sendto data len rtcp ret).2.choice = sf.choice := by
  unfold sendto
  dsimp only
  split_ifs <;> rfl

theorem Subflow.measure_choice (sf : Subflow) (last pkt : RtcpRrPacket) (w : World) :
    ((sf.measure last pkt w).1.store pkt).choice = sf.choice := by
  unfold measure withoutLoss withLoss relax
  dsimp only
  split_ifs <;> rfl

namespace SenderData

variable {d d' : SenderData}

def choices (d : SenderData) : List (ExtRat × ℕ) := d.subflows.map Subflow.choice

theorem choices_put {k : ℕ} {sf sf' : Subflow} (hk : d.subflows[k]? = some sf)
    (h : sf'.choice = sf.choice) : (d.put k sf').choices = d.choices := by
  obtain ⟨hlt, hget⟩ := List.getElem?_eq_some_iff.mp hk
  unfold choices
  rw [List.map_set, h, ← List.map_set, ← hget, List.set_getElem_self]

theorem Unmoved.choices (h : d.Unmoved d') : d'.choices = d.choices :=
  congrArg (List.map Subflow.choice) h.subflows

theorem Sends.choices {w : World} {data : List UInt8} {ret : ℤ} {k : ℕ} {sf : Subflow}
    {timestamp : UInt32} {r : Bool × SenderData × World} (hs : d.Sends w data ret k sf timestamp r) :
    r.2.1.choices = d.choices :=
  hs.unmoved.choices.trans (choices_put hs.subflow (sf.sendto_choice _ _ _ _))

theorem onRtcpRrPacket_choices (d : SenderData) (w : World) (pkt : RtcpRrPacket) (id : UInt16) :
    (d.onRtcpRrPacket w pkt id).1.choices = d.choices := by
  rcases d.onRtcpRrPacket_cases w pkt id with ⟨hres, -⟩ | ⟨k, sf, hst⟩ | ⟨m, hms⟩
  · rw [hres]
  · rw [hst.result]
    have hsame : (sf.store pkt).choice = sf.choice := rfl
    exact choices_put hst.subflow hsame
  · rw [hms.result]
    exact choices_put hms.subflow (m.sf.measure_choice m.last pkt w)

theorem measureStreamBitrate_choices (d : SenderData) (curtime : RtpTime) :
    (d.measureStreamBitrate curtime).choices = d.choices := by
  unfold choices
  rw [(d.measureStreamBitrate_numbers curtime).1]

theorem selectFrom_congr {rnd : ℚ} {sfs sfs' : List Subflow}
    (h : sfs'.map Subflow.choice = sfs.map Subflow.choice) (p : ExtRat) (k : ℕ) :
    selectFrom rnd sfs' p k = selectFrom rnd sfs p k := by
  induction sfs generalizing sfs' p k with
  | nil => rw [List.map_eq_nil_iff.mp h]
  | cons sf sfs ih =>
    obtain ⟨sf', rest, rfl, hsf, hrest⟩ := List.map_eq_cons_iff.mp h
    have hpercentage : sf'.percentage = sf.percentage := congrArg Prod.fst hsf
    unfold selectFrom
    dsimp only
    rw [hpercentage, ih hrest]

theorem selectSubflow_congr (h : d'.choices = d.choices) (w : World) :
    (d'.selectSubflow w).1 = (d.selectSubflow w).1 := by
  have hfrom : selectFrom ((w.draw % 101 : ℕ) / 100) d'.subflows 0 0 =
      selectFrom ((w.draw % 101 : ℕ) / 100) d.subflows 0 0 := selectFrom_congr h 0 0
  have hlen : d'.subflows.length = d.subflows.length := by simpa [choices] using congrArg List.length h
  unfold selectSubflow
  dsimp only
  rw [hfrom]
  cases selectFrom ((w.draw % 101 : ℕ) / 100) d.subflows 0 0 with
  | some k => rfl
  | none =>
    cases hd : d.subflows with
    | nil =>
      rw [hd] at hlen
      rw [List.length_eq_zero_iff.mp hlen]
    | cons sf sfs =>
      rw [hd] at hlen
      obtain ⟨sf', sfs', hd'⟩ := List.exists_cons_of_length_eq_add_one hlen
      rw [hd']

theorem selectSubflow_of_some {w : World} {k : ℕ}
    (h : selectFrom ((w.draw % 101 : ℕ) / 100) d.subflows 0 0 = some k) : (d.selectSubflow w).1 = some k := by
  unfold selectSubflow
  dsimp only
  rw [h]

/-- `select_subflow` returns the subflow at `k` for some value of the random draw. -/
def Selectable (d : SenderData) (k : ℕ) : Prop := ∃ w, (d.selectSubflow w).1 = some k

theorem Selectable.congr {k : ℕ} (h : d'.choices = d.choices) (hk : d'.Selectable k) : d.Selectable k := by
  obtain ⟨w, hw⟩ := hk
  exact ⟨w, (selectSubflow_congr h w).symm.trans hw⟩

/-- The loop over percentages that are finite picks from their values. -/
theorem selectFrom_eq_pick {rnd p : ℚ} {sfs : List Subflow} {qs : List ℚ}
    (h : sfs.map Subflow.percentage = qs.map .fin) (k : ℕ) :
    selectFrom rnd sfs (.fin p) k = (pick rnd qs p).map (k + ·) := by
  induction sfs generalizing qs p k with
  | nil =>
    rw [List.map_eq_nil_iff.mp h.symm]
    rfl
  | cons sf sfs ih =>
    obtain ⟨q, rest, rfl, hq, hrest⟩ := List.map_eq_cons_iff.mp h.symm
    unfold selectFrom pick
    rw [← hq, ExtRat.fin_add_fin]
    dsimp only
    simp only [ExtRat.fin_lt_fin, ih hrest.symm]
    split
    · rfl
    · rw [Option.map_map]
      congr 1
      funext i
      exact Nat.add_right_comm k 1 i

theorem selectFrom_zero {qs : List ℚ} (h : d.subflows.map Subflow.percentage = qs.map .fin) (rnd : ℚ) :
    selectFrom rnd d.subflows 0 0 = pick rnd qs 0 := by
  change selectFrom rnd d.subflows (.fin 0) 0 = _
  rw [selectFrom_eq_pick h]
  simp

theorem pick_halves {x : ℚ} {n i : ℕ} (hx : 0 ≤ x) : pick x (List.replicate n (1 / 2)) 0 = some i ↔
    i < n ∧ (i : ℚ) / 2 ≤ x ∧ x < (i + 1 : ℚ) / 2 := by
  have hpos : ∀ q ∈ List.replicate n (1 / 2 : ℚ), 0 ≤ q := by
    intro q hq
    rw [List.eq_of_mem_replicate hq]
    positivity
  rw [pick_eq_some_iff hpos hx, List.length_replicate, zero_add, zero_add]
  refine and_congr_right fun hi => ?_
  rw [List.take_replicate, List.take_replicate, Nat.min_eq_left hi.le, Nat.min_eq_left hi,
    List.sum_replicate, List.sum_replicate, nsmul_eq_mul, nsmul_eq_mul, mul_one_div, mul_one_div,
    Nat.cast_succ]

/-- As long as every percentage is the initial one, the draw only reaches the first three. -/
theorem selectable_iff_of_halves (h : ∀ sf ∈ d.subflows, sf.percentage = .fin (1 / 2)) {k : ℕ} :
    d.Selectable k ↔ k < d.subflows.length ∧ k < 3 := by
  have hqs : d.subflows.map Subflow.percentage =
      (List.replicate d.subflows.length (1 / 2)).map ExtRat.fin := by
    rw [List.map_replicate]
    exact List.map_eq_replicate_iff.mpr h
  constructor
  · intro hk
    obtain ⟨w, hw⟩ := hk
    have hrnd : ((w.draw % 101 : ℕ) : ℚ) ≤ 100 := by
      exact_mod_cast (show w.draw % 101 ≤ 100 by omega)
    unfold selectSubflow at hw
    dsimp only at hw
    rw [selectFrom_zero hqs] at hw
    split at hw
    · rename_i j sfs hj
      cases hw
      obtain ⟨hlen, hle, -⟩ := (pick_halves (by positivity)).mp hj
      refine ⟨hlen, ?_⟩
      have hlt : (k : ℚ) < 3 := by linarith
      exact_mod_cast hlt
    · cases hw
    · rename_i sf sfs hnone hd
      cases hw
      rw [hd]
      exact ⟨by simp, by omega⟩
  · intro hk
    obtain ⟨hlen, hlt⟩ := hk
    -- the draw 50 k is the sum of the percentages in front
    let w : World := ⟨fun _ => 0, fun _ => 50 * k, 0⟩
    have hdraw : ((w.draw % 101 : ℕ) : ℚ) / 100 = k / 2 := by
      have hmod : w.draw % 101 = 50 * k := Nat.mod_eq_of_lt (show 50 * k < 101 by omega)
      rw [hmod]
      push_cast
      ring
    have hhit := (pick_halves (by positivity)).mpr ⟨hlen, le_refl _, by linarith⟩
    rw [← hdraw, ← selectFrom_zero hqs] at hhit
    exact ⟨w, selectSubflow_of_some hhit⟩

end SenderData

/-- No distribution has been calculated: whenever one was due, a subflow was not ready. -/
def Undistributed (H : List SenderEvent) : Prop :=
  ∀ d divisors, .recalc d divisors ∈ H → ∃ sf ∈ d.subflows, sf.readyForDistribution = false

theorem Undistributed.of_append {H H' : List SenderEvent} (h : Undistributed (H ++ H')) :
    Undistributed H := fun d divisors hmem => h d divisors (List.mem_append_left _ hmem)

/-- There are `n` subflows, and they have the initial percentage as long as no distribution has been
calculated. -/
structure SenderData.Initial (n : ℕ) (H : List SenderEvent) (d : SenderData) : Prop where
  length : d.choices.length = n
  halves : Undistributed H → ∀ c ∈ d.choices, c.1 = .fin (1 / 2)

namespace SenderData.Initial

variable {n : ℕ} {H : List SenderEvent} {d d' : SenderData}

theorem congr (h : d.Initial n H) (hd : d'.choices = d.choices) : d'.Initial n H :=
  ⟨hd ▸ h.length, hd ▸ h.halves⟩

theorem tell (h : d.Initial n H) (e : SenderEvent) : d.Initial n (H ++ [e]) :=
  ⟨h.length, fun hu => h.halves hu.of_append⟩

/-- A distribution that is not due, or cannot be calculated, leaves the percentages as they are. -/
theorem redistribute (h : d.Initial n H) :
    d.redistribute.Sat (fun _ _ => True) H fun H' d' => d'.Initial n H' := by
  unfold SenderData.redistribute
  apply Exec.sat_ite
  · intro _
    exact Exec.sat_pure h
  · intro _
    refine Exec.sat_bind (Q := fun H' _ => H' = H ++ [.recalc d d.recalcSubflowPercentage.log])
      (Exec.sat_tell trivial rfl) ?_
    intro H' _ hH
    obtain rfl := hH
    apply Exec.sat_pure
    by_cases hready : d.subflows.all Subflow.readyForDistribution
    · have hlen := d.redistributed_reweighted.length_eq.symm
      refine ⟨?_, ?_⟩
      · rw [← h.length]
        unfold choices
        rw [List.length_map, List.length_map, hlen]
      · intro hu
        obtain ⟨sf, hsf, hnot⟩ := hu d _ (List.mem_append_right _ (List.mem_singleton_self _))
        rw [List.all_eq_true.mp hready sf hsf] at hnot
        cases hnot
    · have hsame : d.recalcSubflowPercentage = pure d.subflows := by
        unfold recalcSubflowPercentage
        rw [if_pos (by simpa using hready)]
      have hd : ({ d with
          subflows := d.recalcSubflowPercentage.res.getD d.subflows
          recalcDistribution := false } : SenderData).choices = d.choices := by
        rw [hsame]
        rfl
      exact (h.tell _).congr hd

end SenderData.Initial

namespace Sender

variable {isPathValid : Endpoint → Endpoint → Bool} {n : ℕ} {H : List SenderEvent} {s : Sender}

/-- The initial distribution is kept by all calls but `connect`. -/
theorem keptByUse_initial (n : ℕ) : KeptByUse (fun _ _ => True) fun H d => d.Initial n H where
  rr := fun _ d w pkt id _ _ h => ⟨trivial, (h.tell _).congr (d.onRtcpRrPacket_choices w pkt id)⟩
  visit := fun _ _ _ _ h => ⟨trivial, h.tell _⟩
  sends := fun _ _ _ _ _ _ _ _ _ hs h => ⟨trivial, (h.tell _).congr hs.choices⟩
  sendsReport := fun _ _ _ _ _ _ _ hs h => ⟨trivial, (h.tell _).congr hs.unmoved.choices⟩
  measure := fun _ d curtime h => ⟨trivial, (h.tell _).congr (d.measureStreamBitrate_choices curtime)⟩
  redistribute := fun _ _ h => h.redistribute

/-- `connect` makes subflows with the initial percentage. -/
theorem connect_halves (isPathValid : Endpoint → Endpoint → Bool)
    (h : ∀ sf ∈ s.obj.subflows, sf.percentage = .fin (1 / 2)) (ssrc : UInt32)
    (destination : List Endpoint) : ∀ sf ∈ (s.connect isPathValid ssrc destination).2.obj.subflows,
      sf.percentage = .fin (1 / 2) := by
  unfold connect
  split
  · exact h
  · refine connectPaths_rule (I := fun d _ => ∀ sf ∈ d.subflows, sf.percentage = .fin (1 / 2)) ?_
      isPathValid s.interfaces _ h
    intro d w iface remote hd sf hsf
    rcases List.mem_append.mp hsf with hsf | hsf
    · exact hd sf hsf
    · rw [List.mem_singleton.mp hsf]
      rfl

/-- In every run behind the `connect` of a sender without subflows, as long as no distribution has been
calculated, every subflow can be selected exactly when there are at most three valid paths. -/
theorem all_selectable_iff {s₀ : Sender} (hfresh : s₀.obj.subflows = []) {ssrc : UInt32}
    {destination : List Endpoint}
    (hrun : Run (step isPathValid) (fun _ _ e => e.Unconnected)
      (s₀.connect isPathValid ssrc destination).2 H (some s)) (hu : Undistributed H) :
    let n := (validPaths isPathValid s₀.interfaces destination).length
    s.obj.subflows.length = n ∧ ((∀ k < n, s.obj.Selectable k) ↔ n ≤ 3) := by
  intro n
  have h₀ : (s₀.connect isPathValid ssrc destination).2.obj.Initial n [] := by
    have hnew := connect_halves isPathValid (s := s₀) (by simp [hfresh]) ssrc destination
    constructor
    · unfold SenderData.choices
      rw [List.length_map, length_connect, hfresh, List.length_nil, Nat.zero_add]
    · intro _ c hc
      obtain ⟨sf, hsf, rfl⟩ := List.mem_map.mp hc
      exact hnew sf hsf
  have hs := (Run.sat (I := fun H s => s.obj.Initial n H) h₀
    (fun H s e h he => (keptByUse_initial n).step isPathValid h he) hrun).2 s rfl
  have hlen : s.obj.subflows.length = n := by
    rw [← hs.length]
    exact (List.length_map _).symm
  have hhalves : ∀ sf ∈ s.obj.subflows, sf.percentage = .fin (1 / 2) := by
    intro sf hsf
    exact hs.halves hu sf.choice (List.mem_map_of_mem hsf)
  refine ⟨hlen, ?_⟩
  simp only [SenderData.selectable_iff_of_halves hhalves, hlen]
  constructor
  · intro hall
    by_contra hgt
    have hthree := hall 3 (by omega)
    omega
  · intro hle k hk
    exact ⟨hk, by omega⟩

/-- Both of two paths can be selected after the first packet. -/
theorem oneInterface_selectable :
    let s₁ := (oneInterface.connect (fun _ _ => true) 0xDEAD
      [⟨0x0A000002, 23000⟩, ⟨0x0A000003, 23000⟩]).2
    ∃ s, (step (fun _ _ => true) s₁ (.sendData [1, 2, 3] 27)).res = some s ∧
      ∀ k < 2, s.obj.Selectable k := by
  intro s₁
  have hsome : (step (fun _ _ => true) s₁ (.sendData [1, 2, 3] 27)).res.isSome = true := by decide +kernel
  have hnone : (step (fun _ _ => true) s₁ (.sendData [1, 2, 3] 27)).log.all
      (fun e => e.recalc?.isNone) = true := by decide +kernel
  obtain ⟨s, hs⟩ := Option.isSome_iff_exists.mp hsome
  have hfirst : Run (step fun _ _ => true) (fun _ _ e => e.Unconnected) s₁ [] (some s₁) := .nil
  have hrun := hfirst.snoc (Step.sendData [1, 2, 3] 27) trivial
  rw [hs] at hrun
  have hu : Undistributed ([] ++ (step (fun _ _ => true) s₁ (.sendData [1, 2, 3] 27)).log) := by
    intro d divisors hmem
    cases List.all_eq_true.mp hnone _ hmem
  obtain ⟨-, hiff⟩ := all_selectable_iff rfl hrun hu
  exact ⟨s, hs, hiff.mpr (by decide)⟩

/-- Of four paths the draw never reaches the last one. -/
theorem fourth_never_selected :
    ¬ ∀ (isPathValid : Endpoint → Endpoint → Bool) (s₀ s : Sender) (ssrc : UInt32)
      (destination : List Endpoint) (H : List SenderEvent), s₀.obj.subflows = [] →
      Run (step isPathValid) (fun _ _ e => e.Unconnected) (s₀.connect isPathValid ssrc destination).2 H
        (some s) →
      Undistributed H → ∀ k < s.obj.subflows.length, s.obj.Selectable k := by
  intro h
  let destination : List Endpoint :=
    [⟨0x0A000002, 23000⟩, ⟨0x0A000003, 23000⟩, ⟨0x0A000004, 23000⟩, ⟨0x0A000005, 23000⟩]
  have hempty : oneInterface.obj.subflows = [] := rfl
  have hall := h (fun _ _ => true) oneInterface _ 0xDEAD destination [] hempty .nil
    (fun _ _ hmem => by cases hmem)
  have hlen : (oneInterface.connect (fun _ _ => true) 0xDEAD destination).2.obj.subflows.length = 4 := by
    decide +kernel
  have hhalves := connect_halves (fun _ _ => true) (s := oneInterface) (by simp [hempty]) 0xDEAD destination
  have hthree := hall 3 (by omega)
  rw [SenderData.selectable_iff_of_halves hhalves] at hthree
  omega

end Sender

end Mprtp
