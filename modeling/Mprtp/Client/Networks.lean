import Mprtp.Client.Lines
import Mprtp.Sender.Destinations
import Mprtp.Server

/-! The datagrams of the client stay within a network, and go to the sockets of a server that was started with
the same addresses. -/
namespace Mprtp

/-- Adding interfaces, in any kind of session. -/
theorem Session.foldlM_addInterface {σ ω ε : Type} (step : Session σ → ε → Exec ω (Session σ))
    (add : Endpoint → Bool → ε) (hadd : ∀ s addr b, (step s (add addr b)).res = some (s.addInterface addr b))
    (opened : ℕ → Bool) (l : List (Endpoint × ℕ)) (s : Session σ) :
    ((l.map fun p => add p.1 (opened p.2)).foldlM step s).res =
      some { s with interfaces := s.interfaces ++ (l.filter fun p => opened p.2).map fun p => Interface.new p.1 } := by
  induction l generalizing s with
  | nil =>
    change some s = _
    rw [List.filter_nil, List.map_nil, List.append_nil]
  | cons p l ih =>
    rw [List.map_cons, List.foldlM_cons, Exec.res_bind, hadd, Option.bind_some, ih, List.filter_cons]
    unfold addInterface
    split
    · rw [List.map_cons, List.append_assoc]
      rfl
    · rfl

/-- The places of the endpoints that are opened. -/
theorem mem_opened {opened : ℕ → Bool} {addrs : List UInt32} {port : UInt16} {addr : Endpoint}
    (h : addr ∈ (((endpoints addrs port).zipIdx.filter fun p => opened p.2).map Prod.fst)) :
    ∃ i ip, opened i = true ∧ addrs[i]? = some ip ∧ addr = ⟨ip, port + 2 * UInt16.ofNat i⟩ := by
  obtain ⟨⟨addr', i⟩, hmem, rfl⟩ := List.mem_map.mp h
  obtain ⟨hmem, hopened⟩ := List.mem_filter.mp hmem
  have hget := List.mem_zipIdx_iff_getElem?.mp hmem
  rw [getElem?_endpoints] at hget
  obtain ⟨ip, hip, haddr⟩ := Option.map_eq_some_iff.mp hget
  exact ⟨i, ip, hopened, hip, haddr.symm⟩

namespace Server

def Opt.i? : Opt → Option UInt32
  | .i addr => some addr
  | _ => none

theorem readOpts_ifaces {opts : List Opt} {o : Options} (h : readOpts opts = some o) :
    o.ifaces = opts.filterMap Opt.i? := by
  have hread : ∀ (opts : List Opt) (o o' : Options), opts.foldlM readOpt o = some o' →
      o'.ifaces = o.ifaces ++ opts.filterMap Opt.i? := by
    intro opts
    induction opts with
    | nil =>
      intro o o' h
      cases h
      exact (List.append_nil _).symm
    | cons opt opts ih =>
      intro o o' h
      obtain ⟨o₁, hone, hrest⟩ := Option.bind_eq_some_iff.mp h
      rw [ih o₁ o' hrest]
      cases opt with
      | p port =>
        cases hone
        rfl
      | i addr =>
        cases hone
        exact List.append_assoc ..
      | unknown => cases hone
  obtain ⟨o', hloop, hif⟩ := Option.bind_eq_some_iff.mp h
  split at hif
  · cases hif
  · cases hif
    exact hread opts {} o hloop

/-- The interfaces of a server that could open all of them. -/
theorem setUp_interfaces {o : Options} {w : World} {r : Receiver}
    (h : (setUp o (fun _ => true) w).res = some r) (j : ℕ) :
    r.interfaces[j]? = o.ifaces[j]?.map fun ip => Interface.new ⟨ip, o.port + 2 * UInt16.ofNat j⟩ := by
  have hadded := Session.foldlM_addInterface Receiver.step .addInterface (fun _ _ _ => rfl) (fun _ => true)
    (endpoints o.ifaces o.port).zipIdx (Receiver.new (1 / 1000) 0xBEAF w)
  cases h.symm.trans hadded
  change ([] ++ ((endpoints o.ifaces o.port).zipIdx.filter fun _ => true).map fun p => Interface.new p.1)[j]? = _
  rw [List.nil_append, List.filter_true, List.getElem?_map, List.getElem?_zipIdx, getElem?_endpoints, Option.map_map,
    Option.map_map]
  rfl

end Server

namespace Client

open Sender

def Opt.i? : Opt → Option UInt32
  | .i addr => some addr
  | _ => none

def Opt.r? : Opt → Option UInt32
  | .r addr => some addr
  | _ => none

theorem readOpts_addrs {opts : List Opt} {o : Options} (h : readOpts opts = some o) :
    o.localIfaces = opts.filterMap Opt.i? ∧ o.remoteIfaces = opts.filterMap Opt.r? := by
  have hread : ∀ (opts : List Opt) (o o' : Options), opts.foldlM readOpt o = some o' →
      o'.localIfaces = o.localIfaces ++ opts.filterMap Opt.i? ∧
        o'.remoteIfaces = o.remoteIfaces ++ opts.filterMap Opt.r? := by
    intro opts
    induction opts with
    | nil =>
      intro o o' h
      cases h
      exact ⟨(List.append_nil _).symm, (List.append_nil _).symm⟩
    | cons opt opts ih =>
      intro o o' h
      obtain ⟨o₁, hone, hrest⟩ := Option.bind_eq_some_iff.mp h
      rw [(ih o₁ o' hrest).1, (ih o₁ o' hrest).2]
      cases opt with
      | p port =>
        cases hone
        exact ⟨rfl, rfl⟩
      | s port =>
        cases hone
        exact ⟨rfl, rfl⟩
      | i addr =>
        cases hone
        exact ⟨List.append_assoc .., rfl⟩
      | r addr =>
        cases hone
        exact ⟨rfl, List.append_assoc ..⟩
      | unknown => cases hone
  obtain ⟨o', hloop, hif⟩ := Option.bind_eq_some_iff.mp h
  split at hif
  · cases hif
  · cases hif
    exact hread opts {} o hloop

theorem isPathValid_iff (addr remote : Endpoint) :
    isPathValid addr remote = true ↔ addr.ip.toNat / 2 ^ 8 = remote.ip.toNat / 2 ^ 8 := by
  unfold isPathValid
  rw [inSameSubnet_eq, if_pos (by decide), decide_eq_true_eq, Option.some.injEq, decide_eq_true_eq]
  rfl

variable {o : Options} {opened : ℕ → Bool} {w : World} {b : Bool} {s₀ : Sender} {H : List Entry}

/-- The set-up sender: its interfaces are those that could be opened, and its paths the valid ones from them to
the destination. -/
theorem setUp_paths (h : (setUp o opened w).res = some (b, s₀)) : ∃ fs : List Interface,
    Session.addresses fs = (((endpoints o.localIfaces o.localPort).zipIdx.filter fun p => opened p.2).map Prod.fst) ∧
      s₀.interfaces = fs ∧
        s₀.obj.paths = validPaths isPathValid fs (endpoints o.remoteIfaces o.remotePort) := by
  have hadded := Session.foldlM_addInterface call .addInterface (fun _ _ _ => rfl) opened
    (endpoints o.localIfaces o.localPort).zipIdx (Sender.new (1 / 1000) w)
  unfold setUp at h
  dsimp only at h
  rw [Exec.res_bind, hadded] at h
  generalize hfs : ((endpoints o.localIfaces o.localPort).zipIdx.filter fun p => opened p.2).map
    (fun p => Interface.new p.1) = fs at h
  have hs : (Sender.connect isPathValid { Sender.new (1 / 1000) w with interfaces := fs } 0xDEAD
      (endpoints o.remoteIfaces o.remotePort)).2 = s₀ := congrArg Prod.snd (Option.some.inj h)
  obtain ⟨added, hsubflows, hpaths⟩ := Sender.connect_subflows isPathValid
    { Sender.new (1 / 1000) w with interfaces := fs } 0xDEAD (endpoints o.remoteIfaces o.remotePort)
  refine ⟨fs, ?_, ?_, ?_⟩
  · rw [← hfs]
    unfold Session.addresses
    rw [List.map_map]
    rfl
  · rw [← hs]
    exact (connect_queues isPathValid _ _ _).1
  · rw [← hs]
    unfold SenderData.paths
    rw [hsubflows]
    exact hpaths

/-- What is sent goes along one of the paths. -/
def GoesAlong (paths : List (ℕ × Endpoint)) : Entry → Prop
  | .inl _ => True
  | .inr e => Along paths e

/-- The paths are those of a sender `s₀`, and there are its interfaces, with their addresses. -/
structure Keeps (s₀ s : Sender) : Prop where
  paths : s.obj.paths = s₀.obj.paths
  addresses : Session.addresses s₀.interfaces <+: Session.addresses s.interfaces

theorem call_keeps {s : Sender} (hs : Keeps s₀ s) {e : Sender.Step} (he : ∃ i, Threaded i e) :
    (call s e).Sat (fun _ => GoesAlong s₀.obj.paths) H fun _ => Keeps s₀ := by
  have hunconnected : e.Unconnected := by
    obtain ⟨i, hi⟩ := he
    cases e with
    | connect ssrc destination => cases i <;> exact hi
    | _ => trivial
  have huse := (keptByUse_paths s₀.obj.paths).step (H := []) isPathValid hs.paths hunconnected
  have hsat : (noting (Sender.step isPathValid) s e).Sat (fun _ => GoesAlong s₀.obj.paths) H fun _ => Keeps s₀ :=
    Exec.sat_noting_own trivial ((huse.and (step_addresses s e)).mono (fun _ _ ha => ha.1)
      fun _ _ hs' => ⟨hs'.1, hs.addresses.trans hs'.2⟩)
  exact hsat

/-- The calls of the threads leave the paths as they are and send along them, and the interfaces keep their
addresses. -/
theorem run_keepsPaths {r : Option Sender} (hrun : Run call (fun _ _ e => ∃ i, Threaded i e) s₀ H r) :
    (∀ e ∈ H, GoesAlong s₀.obj.paths e) ∧ ∀ s, r = some s → Keeps s₀ s := by
  have hsat := Run.sat (I := fun _ => Keeps s₀) ⟨rfl, List.prefix_rfl⟩ (fun _ _ _ hs he => call_keeps hs he) hrun
  refine ⟨?_, hsat.2⟩
  intro e he
  obtain ⟨pre, post, hsplit⟩ := List.append_of_mem he
  exact hsat.1 pre e post hsplit

theorem mem_of_validPaths {isPathValid : Endpoint → Endpoint → Bool} {fs : List Interface}
    {destination : List Endpoint} {p : ℕ × Endpoint} (h : p ∈ validPaths isPathValid fs destination) :
    p.2 ∈ destination := by
  unfold validPaths at h
  obtain ⟨q, -, h⟩ := List.mem_flatMap.mp h
  obtain ⟨addr, haddr, rfl⟩ := List.mem_map.mp h
  exact (List.mem_filter.mp haddr).1

/-- Whatever the order in which the threads of the client step, every datagram that it has handed to a socket is
addressed to a server that was started with the client's `-r` addresses: through the socket of an interface that
was asked for with `-i`, to the RTP socket of an interface of the server in the same network, and to its RTCP
socket when it is a report. -/
theorem sent_to_server {opts : List Opt} {sopts : List Server.Opt} {so : Server.Options}
    {lines : List (List UInt8)} {c₀ c : Client} {es : List Event} {w' : World} {server : Receiver} {k : ℕ}
    {out : OutDatagram} (hopts : readOpts opts = some o) (hstart : start o opened w lines = some c₀)
    (hrun : es.foldlM step c₀ = some c) (hsopts : Server.readOpts sopts = some so)
    (haddrs : sopts.filterMap Server.Opt.i? = opts.filterMap Opt.r?) (hport : so.port = o.remotePort)
    (hserver : (Server.setUp so (fun _ => true) w').res = some server) (hsent : .inr (.sent k out) ∈ c.cli.log) :
    ∃ (i j : ℕ) (addr : UInt32) (f : Interface), opened i = true ∧ (opts.filterMap Opt.i?)[i]? = some addr ∧
      (Session.addresses c.cli.obj.interfaces)[out.iface]? = some ⟨addr, o.localPort + 2 * UInt16.ofNat i⟩ ∧
      (opts.filterMap Opt.r?)[j]? = some f.ip ∧ server.interfaces[j]? = some f ∧
      addr.toNat / 2 ^ 8 = f.ip.toNat / 2 ^ 8 ∧
      out.dest = ⟨f.ip, if out.rtcp then f.rtcpPort else f.rtpPort⟩ := by
  obtain ⟨hlocal, hremote⟩ := readOpts_addrs hopts
  obtain ⟨s₀, hres, hturn⟩ := inTurn_run hstart hrun
  obtain ⟨fs, hfs, hinterfaces, hpaths⟩ := setUp_paths hres
  obtain ⟨H, r, hlog, hpre⟩ := hturn.serial.log_prefix
  obtain ⟨H', hobj⟩ := hturn.serial.obj_run
  have hkeeps : Keeps s₀ c.cli.obj := (run_keepsPaths hobj).2 _ rfl
  obtain ⟨p, hp, hiface, hdest⟩ : Along s₀.obj.paths (.sent k out) :=
    (run_keepsPaths hlog).1 _ (hpre.subset hsent)
  have hmem : p ∈ validPaths isPathValid fs (endpoints o.remoteIfaces o.remotePort) :=
    hpaths ▸ List.mem_of_getElem? hp
  obtain ⟨a, ha, hvalid⟩ := validPaths_valid hmem
  obtain ⟨i, addr, hopened, haddr, rfl⟩ := mem_opened (hfs ▸ List.mem_of_getElem? ha)
  obtain ⟨j, hj⟩ := List.getElem?_of_mem (mem_of_validPaths hmem)
  rw [getElem?_endpoints] at hj
  obtain ⟨remote, hremotej, hremotep⟩ := Option.map_eq_some_iff.mp hj
  have hnetwork := (isPathValid_iff _ _).mp hvalid
  rw [← hremotep] at hnetwork hdest
  have hserverj : server.interfaces[j]? = some (Interface.new ⟨remote, o.remotePort + 2 * UInt16.ofNat j⟩) := by
    rw [Server.setUp_interfaces hserver, Server.readOpts_ifaces hsopts, haddrs, ← hremote, hremotej, hport]
    rfl
  refine ⟨i, j, addr, _, hopened, ?_, ?_, ?_, hserverj, hnetwork, ?_⟩
  · rw [← hlocal]
    exact haddr
  · obtain ⟨rest, hrest⟩ := hkeeps.addresses
    rw [hiface, ← hrest, hinterfaces, List.getElem?_append_left (List.getElem?_eq_some_iff.mp ha).1]
    exact ha
  · rw [← hremote]
    exact hremotej
  · rw [hdest]
    cases out.rtcp <;> rfl

/-- The client sends the line to the second interface of the server. -/
theorem bothThreads_toServer : ∃ c₀ c k out server,
    start oneNet (fun _ => true) (.ticking 1000) [[104, 105], [], [106]] = some c₀ ∧
      bothThreads.foldlM step c₀ = some c ∧ .inr (.sent k out) ∈ c.cli.log ∧
      (Server.setUp { ifaces := [0x0A000001, 0xC0A80101] } (fun _ => true) (.ticking 0)).res = some server ∧
      ∃ f ∈ server.interfaces, out.dest = ⟨f.ip, if out.rtcp then f.rtcpPort else f.rtpPort⟩ := by
  have hsends : ((start oneNet (fun _ => true) (.ticking 1000) [[104, 105], [], [106]]).bind fun c₀ =>
      (bothThreads.foldlM step c₀).map fun c => (told c.cli.log)[0]?.bind SenderEvent.rtp?) =
        some (some (SenderData.rtpBytes 0 0 0xDEAD 1 0 [104, 105])) := by decide +kernel
  obtain ⟨c₀, hstart, hsends⟩ := Option.bind_eq_some_iff.mp hsends
  obtain ⟨c, hrun, hsends⟩ := Option.map_eq_some_iff.mp hsends
  obtain ⟨e, he, hrtp⟩ := Option.bind_eq_some_iff.mp hsends
  have hmem : .inr e ∈ c.cli.log := mem_told.mp (List.mem_of_getElem? he)
  obtain ⟨k, out, rfl⟩ : ∃ k out, e = .sent k out := by
    cases e with
    | sent k out => exact ⟨k, out, rfl⟩
    | _ => cases hrtp
  have hserver : (Server.setUp { ifaces := [0x0A000001, 0xC0A80101] } (fun _ => true) (.ticking 0)).res.isSome := by
    decide +kernel
  obtain ⟨server, hserver⟩ := Option.isSome_iff_exists.mp hserver
  have hopts : readOpts [.i 0xC0A80105, .r 0x0A000001, .r 0xC0A80101] = some oneNet := rfl
  have hsopts : Server.readOpts [.i 0x0A000001, .i 0xC0A80101] = some { ifaces := [0x0A000001, 0xC0A80101] } := rfl
  obtain ⟨i, j, addr, f, -, -, -, -, hf, -, hdest⟩ :=
    sent_to_server hopts hstart hrun hsopts (by decide) rfl hserver hmem
  exact ⟨c₀, c, k, out, server, hstart, hrun, hmem, hserver, f, List.mem_of_getElem? hf, hdest⟩

end Client

end Mprtp
