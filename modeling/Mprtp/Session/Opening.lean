import Mprtp.Lib.Descriptors
import Mprtp.Session

/-! The sockets that the interfaces of a session open, bind and close, in a process that has other
descriptors as well. -/
namespace Mprtp

/-- Two sockets cannot both be bound: they ask for the same port, on the same address or on any. -/
def Endpoint.Clash (a b : Endpoint) : Prop := a.port = b.port ∧ (a.ip = b.ip ∨ a.ip = 0 ∨ b.ip = 0)

instance : DecidableRel Endpoint.Clash := fun a b =>
  inferInstanceAs (Decidable (a.port = b.port ∧ (a.ip = b.ip ∨ a.ip = 0 ∨ b.ip = 0)))

instance : Std.Symm Endpoint.Clash where
  symm _ _ h := ⟨h.1.symm, h.2.elim (fun hip => Or.inl hip.symm) fun hany => Or.inr hany.symm⟩

/-- The open descriptors of the process. -/
abbrev Os := Descriptors Endpoint.Clash

/-- What the system calls of `interface::open` meet: the numbers for the two descriptors, and the ports that
the kernel picks where port 0 is asked for; `none` for a call that fails. -/
structure OpenInput where
  rtpSock : Option ℕ
  rtcpSock : Option ℕ
  rtpPort : Option UInt16
  rtcpPort : Option UInt16

namespace Os

/-- `socket`. -/
def socket (os : Os) (n : Option ℕ) : ℤ × Os :=
  match n.bind fun n => (os.alloc n).map fun os => (n, os) with
  | none => (-1, os)
  | some (n, os) => (n, os)

/-- `bind`. -/
def bindTo (os : Os) (sock : ℤ) (addr : Endpoint) (port : Option UInt16) : ℤ × Os :=
  match port.bind fun port => os.bind sock.toNat (if addr.port = 0 then ⟨addr.ip, port⟩ else addr) with
  | none => (-1, os)
  | some os => (0, os)

end Os

/-- `interface` with its sockets. -/
structure SocketInterface extends Interface where
  rtpSock : ℤ := -1
  rtcpSock : ℤ := -1

namespace SocketInterface

def new (ep : Endpoint) : SocketInterface := { Interface.new ep with }

/-- What `open` does at `clean`, and the destructor. -/
def closeSockets (f : SocketInterface) (os : Os) : Os :=
  let os := if 0 ≤ f.rtpSock then os.close f.rtpSock.toNat else os
  if 0 ≤ f.rtcpSock then os.close f.rtcpSock.toNat else os

/-- `interface::open`. -/
def openSockets (f : SocketInterface) (io : OpenInput) (os : Os) : Bool × SocketInterface × Os :=
  let (rtpSock, os) := os.socket io.rtpSock
  let (rtcpSock, os) := os.socket io.rtcpSock
  let f := { f with rtpSock, rtcpSock }
  if rtpSock < 0 ∨ rtcpSock < 0 then (false, f, f.closeSockets os)
  else
    let (status, os) := os.bindTo rtpSock ⟨f.ip, f.rtpPort⟩ io.rtpPort
    if status = -1 then (false, f, f.closeSockets os)
    else
      let (status, os) := os.bindTo rtcpSock ⟨f.ip, f.rtcpPort⟩ io.rtcpPort
      if status = -1 then (false, f, f.closeSockets os) else (true, f, os)

/-- The descriptors of the interface. -/
def socks (f : SocketInterface) : List ℕ := [f.rtpSock.toNat, f.rtcpSock.toNat]

end SocketInterface

/-- The interfaces of a session, and the process with the descriptors of its other parts. -/
structure SocketSession where
  interfaces : List SocketInterface := []
  os : Os
  others : List ℕ

namespace SocketSession

/-- A session in a process that has the descriptors of `os` open. -/
def new (os : Os) : SocketSession := { os, others := os.fds }

/-- `add_interface`; when `open` fails, the interface is destroyed. -/
def addInterface (s : SocketSession) (addr : Endpoint) (io : OpenInput) : Bool × SocketSession :=
  let (opened, f, os) := (SocketInterface.new addr).openSockets io s.os
  if opened then (true, { s with interfaces := s.interfaces ++ [f], os })
  else (false, { s with os := f.closeSockets os })

/-- The loop of `suspend_interface`. -/
def suspendFirst (addr : Endpoint) (suspend : Bool) : List SocketInterface → List SocketInterface × Bool
  | [] => ([], false)
  | f :: fs =>
    if addr = f.getAddress then ({ f with suspended := suspend } :: fs, true)
    else
      let (fs, found) := suspendFirst addr suspend fs
      (f :: fs, found)

/-- `suspend_interface`. -/
def suspendInterface (s : SocketSession) (addr : Endpoint) (suspend : Bool) : SocketSession × Bool :=
  let (interfaces, found) := suspendFirst addr suspend s.interfaces
  ({ s with interfaces }, found)

/-- Another part of the process opens a descriptor, and binds it if it is given an address. -/
def openOther (s : SocketSession) (n : ℕ) (addr : Option Endpoint) : SocketSession :=
  match s.os.alloc n with
  | none => s
  | some os => { s with os := (addr.bind (os.bind n)).getD os, others := s.others ++ [n] }

/-- Another part of the process closes one of its descriptors. -/
def closeOther (s : SocketSession) (n : ℕ) : SocketSession :=
  if n ∈ s.others then { s with os := s.os.close n, others := s.others.erase n } else s

/-- The destructor: it destroys the interfaces. -/
def destroy (s : SocketSession) : Os := s.interfaces.foldl (fun os f => f.closeSockets os) s.os

inductive Step where
  | addInterface (addr : Endpoint) (io : OpenInput)
  | suspendInterface (addr : Endpoint) (suspend : Bool)
  | openOther (n : ℕ) (addr : Option Endpoint)
  | closeOther (n : ℕ)

def step (s : SocketSession) : Step → SocketSession
  | .addInterface addr io => (s.addInterface addr io).2
  | .suspendInterface addr suspend => (s.suspendInterface addr suspend).1
  | .openOther n addr => s.openOther n addr
  | .closeOther n => s.closeOther n

/-- The session after the calls, in a process that started with the descriptors of `os`. -/
def run (os : Os) (steps : List Step) : SocketSession := steps.foldl step (new os)

end SocketSession

/-- A socket that is bound to `a` serves the address that was asked for. -/
def Endpoint.Serves (a addr : Endpoint) : Prop := a.ip = addr.ip ∧ (addr.port ≠ 0 → a.port = addr.port)

namespace Os

variable {os os' : Os} {new : List (ℕ × Option Endpoint)}

theorem socket_cases (os : Os) (n : Option ℕ) :
    os.socket n = (-1, os) ∨ ∃ m : ℕ, ∃ os', os.socket n = ((m : ℤ), os') ∧ os.alloc m = some os' := by
  unfold socket
  cases n with
  | none => exact Or.inl rfl
  | some n =>
    cases halloc : os.alloc n with
    | none =>
      left
      rw [Option.bind_some, halloc]
      rfl
    | some os' =>
      right
      refine ⟨n, os', ?_, halloc⟩
      rw [Option.bind_some, halloc]
      rfl

theorem bindTo_cases (os : Os) (sock : ℤ) (addr : Endpoint) (port : Option UInt16) :
    os.bindTo sock addr port = (-1, os) ∨ ∃ a os', os.bindTo sock addr port = (0, os') ∧
      os.bind sock.toNat a = some os' ∧ a.Serves addr := by
  unfold bindTo
  cases port with
  | none => exact Or.inl rfl
  | some port =>
    rw [Option.bind_some]
    cases hbind : os.bind sock.toNat (if addr.port = 0 then ⟨addr.ip, port⟩ else addr) with
    | none => exact Or.inl rfl
    | some os' =>
      refine Or.inr ⟨_, os', rfl, hbind, ?_⟩
      split
      · rename_i hzero
        exact ⟨rfl, fun hne => absurd hzero hne⟩
      · exact ⟨rfl, fun _ => rfl⟩

end Os

namespace SocketInterface

variable {f : SocketInterface} {os os' : Os} {new : List (ℕ × Option Endpoint)}

theorem entries_closeSockets (f : SocketInterface) (os : Os) :
    (f.closeSockets os).entries = os.entries.filter fun e => (e.1 : ℤ) ≠ f.rtpSock ∧ (e.1 : ℤ) ≠ f.rtcpSock := by
  have hclose : ∀ (sock : ℤ) (os : Os), (if 0 ≤ sock then os.close sock.toNat else os).entries =
      os.entries.filter fun e => (e.1 : ℤ) ≠ sock := by
    intro sock os
    split
    · refine List.filter_congr ?_
      intro e _
      simp only [decide_eq_decide]
      omega
    · refine (List.filter_eq_self.mpr ?_).symm
      intro e _
      rw [decide_eq_true_eq]
      omega
  unfold closeSockets
  dsimp only
  rw [hclose, hclose, List.filter_filter]
  refine List.filter_congr ?_
  intro e _
  simp only [Bool.decide_and, Bool.and_comm]

/-- When the sockets of the interface are all that has been opened since `os`, closing them gives `os`
back, and closing them once more changes nothing. -/
theorem closeSockets_gained (h : os.Gained new os')
    (hsocks : ∀ n : ℕ, n ∈ new.map Prod.fst ↔ (n : ℤ) = f.rtpSock ∨ (n : ℤ) = f.rtcpSock) :
    f.closeSockets os' = os ∧ f.closeSockets os = os := by
  have hold : os.entries.filter (fun e => (e.1 : ℤ) ≠ f.rtpSock ∧ (e.1 : ℤ) ≠ f.rtcpSock) = os.entries := by
    refine List.filter_eq_self.mpr ?_
    intro e he
    have hfree : e.1 ∉ new.map Prod.fst := by
      intro hmem
      obtain ⟨e', he', heq⟩ := List.mem_map.mp hmem
      exact h.free he' (heq ▸ Descriptors.mem_fds he)
    rw [decide_eq_true_eq]
    exact not_or.mp fun hor => hfree ((hsocks e.1).mpr hor)
  have hnew : new.filter (fun e => (e.1 : ℤ) ≠ f.rtpSock ∧ (e.1 : ℤ) ≠ f.rtcpSock) = [] := by
    refine List.filter_eq_nil_iff.mpr ?_
    intro e he
    rw [decide_eq_true_eq]
    exact fun hne => (not_or.mpr hne) ((hsocks e.1).mp (List.mem_map_of_mem he))
  constructor
  · apply Descriptors.ext
    rw [entries_closeSockets, h, List.filter_append, hold, hnew, List.append_nil]
  · apply Descriptors.ext
    rw [entries_closeSockets, hold]

theorem openSockets_eq (f : SocketInterface) (io : OpenInput) (os : Os) : f.openSockets io os =
    let rtp := os.socket io.rtpSock
    let rtcp := rtp.2.socket io.rtcpSock
    let f' := { f with rtpSock := rtp.1, rtcpSock := rtcp.1 }
    if rtp.1 < 0 ∨ rtcp.1 < 0 then (false, f', f'.closeSockets rtcp.2)
    else
      let first := rtcp.2.bindTo rtp.1 ⟨f.ip, f.rtpPort⟩ io.rtpPort
      if first.1 = -1 then (false, f', f'.closeSockets first.2)
      else
        let second := first.2.bindTo rtcp.1 ⟨f.ip, f.rtcpPort⟩ io.rtcpPort
        if second.1 = -1 then (false, f', f'.closeSockets second.2) else (true, f', second.2) := rfl

/-- What `open` has done: it either leaves nothing behind, also after the destructor, or it has opened two
sockets that serve the addresses of the interface. -/
inductive Opens (f : SocketInterface) (os : Os) : Bool × SocketInterface × Os → Prop
  | failed (f' : SocketInterface) : f'.closeSockets os = os → Opens f os (false, f', os)
  | opened (n₁ n₂ : ℕ) (a₁ a₂ : Endpoint) (os' : Os) : os.Gained [(n₁, some a₁), (n₂, some a₂)] os' →
      a₁.Serves ⟨f.ip, f.rtpPort⟩ → a₂.Serves ⟨f.ip, f.rtcpPort⟩ →
      Opens f os (true, { f with rtpSock := n₁, rtcpSock := n₂ }, os')

theorem Opens.clean {f' : SocketInterface} (h : os.Gained new os')
    (hsocks : ∀ n : ℕ, n ∈ new.map Prod.fst ↔ (n : ℤ) = f'.rtpSock ∨ (n : ℤ) = f'.rtcpSock) :
    Opens f os (false, f', f'.closeSockets os') := by
  obtain ⟨hclosed, hagain⟩ := closeSockets_gained h hsocks
  rw [hclosed]
  exact .failed f' hagain

theorem opens (f : SocketInterface) (io : OpenInput) (os : Os) : Opens f os (f.openSockets io os) := by
  have hstart : os.Gained [] os := Descriptors.gained_nil.mpr rfl
  have hnone : ∀ n : ℕ, (n : ℤ) ≠ -1 := fun n => by omega
  rw [openSockets_eq]
  rcases os.socket_cases io.rtpSock with hrtp | ⟨n₁, os₁, hrtp, halloc₁⟩
  · rw [hrtp]
    dsimp only
    rcases os.socket_cases io.rtcpSock with hrtcp | ⟨n₂, os₂, hrtcp, halloc₂⟩
    · rw [hrtcp]
      exact Opens.clean hstart (by simp [hnone])
    · rw [hrtcp]
      exact Opens.clean (hstart.alloc halloc₂) (by simp [hnone])
  · have hgained₁ := hstart.alloc halloc₁
    rw [hrtp]
    dsimp only
    rcases os₁.socket_cases io.rtcpSock with hrtcp | ⟨n₂, os₂, hrtcp, halloc₂⟩
    · rw [hrtcp]
      dsimp only
      rw [if_pos (Or.inr (by decide))]
      exact Opens.clean hgained₁ (by simp [hnone])
    · have hgained₂ := hgained₁.alloc halloc₂
      have hne : n₁ ≠ n₂ := by
        rintro rfl
        refine (Descriptors.alloc_eq_some halloc₂).1 ?_
        unfold Descriptors.fds
        rw [hgained₁]
        simp
      rw [hrtcp]
      dsimp only
      rw [if_neg (by omega)]
      rcases os₂.bindTo_cases n₁ ⟨f.ip, f.rtpPort⟩ io.rtpPort with hfirst | ⟨a₁, os₃, hfirst, hbind₁, hserves₁⟩
      · rw [hfirst]
        exact Opens.clean hgained₂ (by simp)
      · rw [hfirst]
        have hgained₃ : os.Gained [(n₁, some a₁), (n₂, none)] os₃ := by
          simpa [Descriptors.bound, hne.symm] using hgained₂.bind (by simp) hbind₁
        dsimp only
        rw [if_neg (by decide)]
        rcases os₃.bindTo_cases n₂ ⟨f.ip, f.rtcpPort⟩ io.rtcpPort with
          hsecond | ⟨a₂, os₄, hsecond, hbind₂, hserves₂⟩
        · rw [hsecond]
          exact Opens.clean hgained₃ (by simp)
        · rw [hsecond]
          have hgained₄ : os.Gained [(n₁, some a₁), (n₂, some a₂)] os₄ := by
            simpa [Descriptors.bound, hne] using hgained₃.bind (by simp) hbind₂
          exact .opened n₁ n₂ a₁ a₂ os₄ hgained₄ hserves₁ hserves₂

end SocketInterface

namespace SocketInterface

/-- Both sockets of the interface are open and serve its addresses. -/
structure Bound (f : SocketInterface) (os : Os) : Prop where
  rtpOpen : 0 ≤ f.rtpSock
  rtcpOpen : 0 ≤ f.rtcpSock
  rtp : ∃ a, (f.rtpSock.toNat, some a) ∈ os.entries ∧ a.Serves f.getAddress
  rtcp : ∃ a, (f.rtcpSock.toNat, some a) ∈ os.entries ∧ a.Serves ⟨f.ip, f.rtcpPort⟩
  port : f.rtcpPort = f.rtpPort + 1

variable {f g : SocketInterface} {os os' : Os}

theorem Bound.mono (h : f.Bound os) (hentries : ∀ e ∈ os.entries, e.1 ∈ f.socks → e ∈ os'.entries) :
    f.Bound os' where
  rtpOpen := h.rtpOpen
  rtcpOpen := h.rtcpOpen
  rtp := by
    obtain ⟨a, ha, hserves⟩ := h.rtp
    exact ⟨a, hentries _ ha (by simp [socks]), hserves⟩
  rtcp := by
    obtain ⟨a, ha, hserves⟩ := h.rtcp
    exact ⟨a, hentries _ ha (by simp [socks]), hserves⟩
  port := h.port

/-- Two sockets do not serve the same address. -/
theorem address_ne_of_serves {n m : ℕ} {a b x y : Endpoint} (ha : (n, some a) ∈ os.entries)
    (hb : (m, some b) ∈ os.entries) (hne : n ≠ m) (hx : a.Serves x) (hy : b.Serves y) (hport : x.port ≠ 0) :
    x ≠ y := by
  rintro rfl
  exact Descriptors.not_clash ha hb hne a rfl b rfl
    ⟨(hx.2 hport).trans (hy.2 hport).symm, Or.inl (hx.1.trans hy.1.symm)⟩

/-- Two interfaces with sockets of their own have different addresses: if both asked for port 0, their RTCP
sockets would serve port 1. -/
theorem Bound.address_ne (hf : f.Bound os) (hg : g.Bound os) (hdisjoint : f.socks.Disjoint g.socks) :
    f.getAddress ≠ g.getAddress := by
  intro heq
  by_cases hzero : f.rtpPort = 0
  · obtain ⟨a, ha, haserves⟩ := hf.rtcp
    obtain ⟨b, hb, hbserves⟩ := hg.rtcp
    have hne : f.rtcpSock.toNat ≠ g.rtcpSock.toNat := fun hsock =>
      hdisjoint (List.mem_cons_of_mem _ (List.mem_singleton_self _)) (by simp [socks, hsock])
    have hport : f.rtcpPort ≠ 0 := by
      rw [hf.port, hzero]
      decide
    have hip : f.ip = g.ip := congrArg Endpoint.ip heq
    have hrtcp : f.rtcpPort = g.rtcpPort := by
      rw [hf.port, hg.port, show f.rtpPort = g.rtpPort from congrArg Endpoint.port heq]
    exact address_ne_of_serves ha hb hne haserves hbserves hport (by rw [hip, hrtcp])
  · obtain ⟨a, ha, haserves⟩ := hf.rtp
    obtain ⟨b, hb, hbserves⟩ := hg.rtp
    have hne : f.rtpSock.toNat ≠ g.rtpSock.toNat := fun hsock =>
      hdisjoint (List.mem_cons_self ..) (by simp [socks, hsock])
    exact address_ne_of_serves ha hb hne haserves hbserves hzero heq

end SocketInterface

namespace SocketSession

/-- Every open descriptor is a socket of one of the interfaces or belongs to another part of the process. -/
structure Owned (s : SocketSession) : Prop where
  perm : s.os.fds.Perm (s.interfaces.flatMap SocketInterface.socks ++ s.others)
  bound : ∀ f ∈ s.interfaces, f.Bound s.os

variable {s : SocketSession}

theorem Owned.nodup (h : s.Owned) : (s.interfaces.flatMap SocketInterface.socks ++ s.others).Nodup :=
  h.perm.nodup_iff.mp s.os.nodup

/-- What other parts of the process open and close are not the sockets of the interfaces. -/
theorem Owned.others_free (h : s.Owned) {f : SocketInterface} (hf : f ∈ s.interfaces) {n : ℕ}
    (hn : n ∈ s.others) : n ∉ f.socks := by
  intro hmem
  exact (List.nodup_append.mp h.nodup).2.2 n (List.mem_flatMap_of_mem hf hmem) n hn rfl

theorem owned_new (os : Os) : (new os).Owned where
  perm := List.Perm.refl _
  bound := fun f hf => (by cases hf)

theorem Owned.addInterface (h : s.Owned) (addr : Endpoint) (io : OpenInput) :
    (s.addInterface addr io).2.Owned := by
  unfold SocketSession.addInterface
  have hopens := (SocketInterface.new addr).opens io s.os
  generalize (SocketInterface.new addr).openSockets io s.os = r at hopens
  cases hopens with
  | failed f' hclosed =>
    dsimp only
    rw [if_neg (by decide), hclosed]
    exact h
  | opened n₁ n₂ a₁ a₂ os' hgained hserves₁ hserves₂ =>
    dsimp only
    rw [if_pos rfl]
    constructor
    · dsimp only
      rw [hgained.fds, List.flatMap_append, List.flatMap_singleton]
      refine (h.perm.append_right _).trans ?_
      rw [List.append_assoc, List.append_assoc]
      exact List.perm_append_comm.append_left _
    · intro f hf
      rcases List.mem_append.mp hf with hf | hf
      · refine (h.bound f hf).mono fun e he _ => ?_
        dsimp only
        rw [hgained]
        exact List.mem_append_left _ he
      · rw [List.mem_singleton.mp hf]
        have hentries : ∀ e ∈ [(n₁, some a₁), (n₂, some a₂)], e ∈ os'.entries := by
          intro e he
          rw [hgained]
          exact List.mem_append_right _ he
        exact ⟨Int.natCast_nonneg n₁, Int.natCast_nonneg n₂, ⟨a₁, hentries _ (by simp), hserves₁⟩,
          ⟨a₂, hentries _ (by simp), hserves₂⟩, rfl⟩

/-- Suspending changes nothing but a flag. -/
theorem suspendFirst_kept (addr : Endpoint) (suspend : Bool) (fs : List SocketInterface) :
    (suspendFirst addr suspend fs).1.flatMap SocketInterface.socks = fs.flatMap SocketInterface.socks ∧
      ∀ os, (∀ f ∈ fs, f.Bound os) → ∀ f ∈ (suspendFirst addr suspend fs).1, f.Bound os := by
  induction fs with
  | nil => exact ⟨rfl, fun _ h => h⟩
  | cons f fs ih =>
    unfold suspendFirst
    split
    · refine ⟨rfl, fun os h => ?_⟩
      obtain ⟨hf, hfs⟩ := List.forall_mem_cons.mp h
      exact List.forall_mem_cons.mpr ⟨⟨hf.rtpOpen, hf.rtcpOpen, hf.rtp, hf.rtcp, hf.port⟩, hfs⟩
    · refine ⟨?_, fun os h => ?_⟩
      · rw [List.flatMap_cons, List.flatMap_cons, ih.1]
      · obtain ⟨hf, hfs⟩ := List.forall_mem_cons.mp h
        exact List.forall_mem_cons.mpr ⟨hf, ih.2 os hfs⟩

theorem Owned.suspendInterface (h : s.Owned) (addr : Endpoint) (suspend : Bool) :
    (s.suspendInterface addr suspend).1.Owned := by
  obtain ⟨hsocks, hbound⟩ := suspendFirst_kept addr suspend s.interfaces
  constructor
  · change s.os.fds.Perm ((suspendFirst addr suspend s.interfaces).1.flatMap _ ++ s.others)
    rw [hsocks]
    exact h.perm
  · exact hbound s.os h.bound

theorem Owned.openOther (h : s.Owned) (n : ℕ) (addr : Option Endpoint) : (s.openOther n addr).Owned := by
  unfold SocketSession.openOther
  cases halloc : s.os.alloc n with
  | none => exact h
  | some os =>
    have hgained := (Descriptors.gained_nil.mpr rfl : s.os.Gained [] s.os).alloc halloc
    have hbind : ∃ o, s.os.Gained [(n, o)] ((addr.bind (os.bind n)).getD os) := by
      cases hos : addr.bind (os.bind n) with
      | none => exact ⟨none, hgained⟩
      | some os' =>
        obtain ⟨a, -, hos⟩ := Option.bind_eq_some_iff.mp hos
        refine ⟨some a, ?_⟩
        simpa [Descriptors.bound] using hgained.bind (by simp) hos
    obtain ⟨o, hgained⟩ := hbind
    constructor
    · dsimp only
      rw [hgained.fds, ← List.append_assoc]
      exact h.perm.append_right _
    · intro f hf
      refine (h.bound f hf).mono fun e he _ => ?_
      dsimp only
      rw [hgained]
      exact List.mem_append_left _ he

theorem Owned.closeOther (h : s.Owned) (n : ℕ) : (s.closeOther n).Owned := by
  unfold SocketSession.closeOther
  split
  · rename_i hn
    constructor
    · have howned : n ∉ s.interfaces.flatMap SocketInterface.socks := by
        intro hmem
        obtain ⟨f, hf, hsock⟩ := List.mem_flatMap.mp hmem
        exact h.others_free hf hn hsock
      dsimp only
      rw [Descriptors.fds_close, ← List.erase_append_right _ howned]
      exact h.perm.erase n
    · intro f hf
      refine (h.bound f hf).mono fun e he hsock => ?_
      refine Descriptors.mem_close.mpr ⟨he, ?_⟩
      rintro rfl
      exact h.others_free hf hn hsock
  · exact h

theorem Owned.step (h : s.Owned) (e : Step) : (s.step e).Owned := by
  cases e with
  | addInterface addr io => exact h.addInterface addr io
  | suspendInterface addr suspend => exact h.suspendInterface addr suspend
  | openOther n addr => exact h.openOther n addr
  | closeOther n => exact h.closeOther n

theorem run_owned (os : Os) (steps : List Step) : (run os steps).Owned := by
  unfold run
  induction steps using List.reverseRecOn with
  | nil => exact owned_new os
  | append_singleton steps e ih =>
    rw [List.foldl_append]
    exact ih.step e

theorem Owned.addresses (h : s.Owned) : s.interfaces.Pairwise fun f g => f.getAddress ≠ g.getAddress := by
  have hnodup := (List.nodup_append.mp h.nodup).1
  refine (List.nodup_flatMap.mp hnodup).2.imp_of_mem ?_
  intro f g hf hg hdisjoint
  exact (h.bound f hf).address_ne (h.bound g hg) hdisjoint

/-- The destructors of the interfaces close their sockets. -/
theorem entries_destroyed (fs : List SocketInterface) (os : Os)
    (hopen : ∀ f ∈ fs, 0 ≤ f.rtpSock ∧ 0 ≤ f.rtcpSock) :
    (fs.foldl (fun os f => f.closeSockets os) os).entries =
      os.entries.filter fun e => e.1 ∉ fs.flatMap SocketInterface.socks := by
  induction fs generalizing os with
  | nil => exact (List.filter_eq_self.mpr fun e _ => by simp).symm
  | cons f fs ih =>
    obtain ⟨⟨hrtp, hrtcp⟩, hfs⟩ := List.forall_mem_cons.mp hopen
    rw [List.foldl_cons, ih _ hfs, SocketInterface.entries_closeSockets, List.filter_filter]
    refine List.filter_congr ?_
    intro e _
    have hsock : e.1 ∈ f.socks ↔ (e.1 : ℤ) = f.rtpSock ∨ (e.1 : ℤ) = f.rtcpSock := by
      simp only [SocketInterface.socks, List.mem_cons, List.not_mem_nil, or_false]
      omega
    rw [Bool.eq_iff_iff, List.flatMap_cons]
    simp only [List.mem_append, hsock, Bool.and_eq_true, decide_eq_true_eq]
    tauto

theorem Owned.destroyed (h : s.Owned) : s.destroy.fds.Perm s.others := by
  have hopen : ∀ f ∈ s.interfaces, 0 ≤ f.rtpSock ∧ 0 ≤ f.rtcpSock :=
    fun f hf => ⟨(h.bound f hf).rtpOpen, (h.bound f hf).rtcpOpen⟩
  have hfds : s.destroy.fds = s.os.fds.filter fun n => n ∉ s.interfaces.flatMap SocketInterface.socks := by
    unfold destroy Descriptors.fds
    rw [entries_destroyed _ _ hopen, List.filter_map]
    rfl
  rw [hfds]
  refine (h.perm.filter _).trans (List.Perm.of_eq ?_)
  have howned : (s.interfaces.flatMap SocketInterface.socks).filter
      (fun n => n ∉ s.interfaces.flatMap SocketInterface.socks) = [] :=
    List.filter_eq_nil_iff.mpr fun n hn => by simpa using hn
  have hothers : s.others.filter (fun n => n ∉ s.interfaces.flatMap SocketInterface.socks) = s.others := by
    refine List.filter_eq_self.mpr ?_
    intro n hn
    rw [decide_eq_true_eq]
    exact fun hmem => (List.nodup_append.mp h.nodup).2.2 n hmem n hn rfl
  rw [List.filter_append, howned, hothers, List.nil_append]

/-- A failed `add_interface` leaves the descriptors of the process as they are. -/
theorem addInterface_failed (addr : Endpoint) (io : OpenInput) (h : (s.addInterface addr io).1 = false) :
    (s.addInterface addr io).2 = s := by
  unfold addInterface at h ⊢
  have hopens := (SocketInterface.new addr).opens io s.os
  generalize (SocketInterface.new addr).openSockets io s.os = r at hopens h
  cases hopens with
  | failed f' hclosed =>
    dsimp only
    rw [if_neg (by decide), hclosed]
  | opened n₁ n₂ a₁ a₂ os' =>
    dsimp only at h
    rw [if_pos rfl] at h
    cases h

/-- In every run of a session, in a process whose other parts open, bind and close descriptors of their own
between its calls: every open descriptor is one socket of one interface or belongs to the other parts; both
sockets of every interface are open and serve its addresses; no two interfaces have the same address; an
`add_interface` that fails changes nothing; and once the session is destroyed, just the descriptors of the
other parts are open. -/
theorem descriptors_owned (os : Os) (steps : List Step) :
    let s := run os steps
    s.os.fds.Perm (s.interfaces.flatMap SocketInterface.socks ++ s.others) ∧
    (∀ f ∈ s.interfaces, f.Bound s.os) ∧
    (s.interfaces.Pairwise fun f g => f.getAddress ≠ g.getAddress) ∧
    (∀ addr io, (s.addInterface addr io).1 = false → (s.addInterface addr io).2 = s) ∧
    s.destroy.fds.Perm s.others := by
  have howned := run_owned os steps
  exact ⟨howned.perm, howned.bound, howned.addresses, addInterface_failed, howned.destroyed⟩

/-- The RTCP port of the first interface is taken, and the second one leaves nothing behind. -/
example : (run .empty [.addInterface ⟨1, 5000⟩ ⟨some 3, some 4, some 0, some 0⟩,
    .addInterface ⟨1, 5001⟩ ⟨some 5, some 6, some 0, some 0⟩]).os.entries =
      [(3, some ⟨1, 5000⟩), (4, some ⟨1, 5001⟩)] := by decide

/-- The calls are those of the session without sockets, where `open` succeeds or fails just the same. -/
theorem addInterface_session {σ : Type} {t : Session σ}
    (h : s.interfaces.map SocketInterface.toInterface = t.interfaces) (addr : Endpoint) (io : OpenInput) :
    (s.addInterface addr io).2.interfaces.map SocketInterface.toInterface =
      (t.addInterface addr (s.addInterface addr io).1).interfaces := by
  unfold addInterface Session.addInterface
  have hopens := (SocketInterface.new addr).opens io s.os
  generalize (SocketInterface.new addr).openSockets io s.os = r at hopens
  cases hopens with
  | failed f' => exact h
  | opened n₁ n₂ a₁ a₂ os' =>
    change (s.interfaces ++ [_]).map SocketInterface.toInterface = t.interfaces ++ [Interface.new addr]
    rw [List.map_append, h]
    rfl

theorem suspendFirst_session (addr : Endpoint) (suspend : Bool) (fs : List SocketInterface) :
    Session.suspendFirst addr suspend (fs.map SocketInterface.toInterface) =
      ((suspendFirst addr suspend fs).1.map SocketInterface.toInterface, (suspendFirst addr suspend fs).2) := by
  induction fs with
  | nil => rfl
  | cons f fs ih =>
    unfold suspendFirst
    rw [List.map_cons]
    unfold Session.suspendFirst
    split
    · rfl
    · rw [ih]
      rfl

/-- Every run is one of the session without sockets. -/
theorem run_session (os : Os) (steps : List Step) (w : World) :
    ∃ H t, Run Session.step (fun _ _ _ => True) (Session.new w) H (some t) ∧
      (run os steps).interfaces.map SocketInterface.toInterface = t.interfaces := by
  unfold run
  induction steps using List.reverseRecOn with
  | nil => exact ⟨[], Session.new w, .nil, rfl⟩
  | append_singleton steps e ih =>
    rw [List.foldl_append]
    obtain ⟨H, t, hrun, hinterfaces⟩ := ih
    generalize steps.foldl step (new os) = s at hinterfaces ⊢
    cases e with
    | addInterface addr io =>
      exact ⟨_, _, hrun.snoc (.addInterface addr (s.addInterface addr io).1) trivial,
        addInterface_session hinterfaces addr io⟩
    | suspendInterface addr suspend =>
      refine ⟨_, _, hrun.snoc (.suspendInterface addr suspend) trivial, ?_⟩
      change (suspendFirst addr suspend s.interfaces).1.map SocketInterface.toInterface =
        (Session.suspendFirst addr suspend t.interfaces).1
      rw [← hinterfaces, suspendFirst_session]
    | openOther n addr =>
      refine ⟨H, t, hrun, ?_⟩
      change (s.openOther n addr).interfaces.map SocketInterface.toInterface = t.interfaces
      unfold openOther
      cases s.os.alloc n <;> exact hinterfaces
    | closeOther n =>
      refine ⟨H, t, hrun, ?_⟩
      change (s.closeOther n).interfaces.map SocketInterface.toInterface = t.interfaces
      unfold closeOther
      split <;> exact hinterfaces

/-- The interface when the one with the address is suspended or resumed. -/
def suspendAt (addr : Endpoint) (suspend : Bool) (f : SocketInterface) : SocketInterface :=
  if f.getAddress = addr then { f with suspended := suspend } else f

theorem suspendFirst_eq (addr : Endpoint) (suspend : Bool) {fs : List SocketInterface}
    (h : fs.Pairwise fun f g => f.getAddress ≠ g.getAddress) : suspendFirst addr suspend fs =
      (fs.map (suspendAt addr suspend), decide (∃ f ∈ fs, f.getAddress = addr)) := by
  induction fs with
  | nil => rfl
  | cons f fs ih =>
    obtain ⟨hf, hfs⟩ := List.pairwise_cons.mp h
    unfold suspendFirst
    split
    · rename_i haddr
      have hrest : fs.map (suspendAt addr suspend) = fs := by
        conv_rhs => rw [← List.map_id fs]
        refine List.map_congr_left fun g hg => ?_
        exact if_neg fun hg' => hf g hg (haddr.symm.trans hg'.symm)
      have hhead : suspendAt addr suspend f = { f with suspended := suspend } := if_pos haddr.symm
      rw [List.map_cons, hrest, hhead]
      simp [haddr]
    · rename_i haddr
      have hhead : suspendAt addr suspend f = f := if_neg fun h => haddr h.symm
      rw [ih hfs, List.map_cons, hhead]
      simp [Ne.symm haddr]

/-- In every such run `suspend_interface` finds the one interface that has the address, if there is one, and
changes the flag of this one only. -/
theorem suspendInterface_unique (os : Os) (steps : List Step) (addr : Endpoint) (suspend : Bool) :
    let s := run os steps
    (s.interfaces.filter fun f => f.getAddress = addr).length ≤ 1 ∧
    s.suspendInterface addr suspend = ({ s with interfaces := s.interfaces.map (suspendAt addr suspend) },
      decide (∃ f ∈ s.interfaces, f.getAddress = addr)) := by
  have haddresses := (run_owned os steps).addresses
  constructor
  · have hsame := haddresses.filter fun f => decide (f.getAddress = addr)
    have hall : ∀ f ∈ (run os steps).interfaces.filter (fun f => f.getAddress = addr), f.getAddress = addr :=
      fun f hf => of_decide_eq_true (List.mem_filter.mp hf).2
    generalize (run os steps).interfaces.filter (fun f => f.getAddress = addr) = fs at hsame hall
    match fs with
    | [] => exact Nat.zero_le _
    | [_] => exact le_rfl
    | f :: g :: fs =>
      have hne := (List.pairwise_cons.mp hsame).1 g (List.mem_cons_self ..)
      exact absurd ((hall f (by simp)).trans (hall g (by simp)).symm) hne
  · unfold suspendInterface
    rw [suspendFirst_eq addr suspend haddresses]

end SocketSession

end Mprtp
