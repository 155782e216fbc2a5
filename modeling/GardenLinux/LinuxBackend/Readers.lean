import Mathlib.Logic.Relation
import GardenLinux.LinuxBackend.Interleaving
import GardenLinux.LinuxBackend.SnapshotRestore
import GardenLinux.LinuxBackend.Stats

/-!
# Calls that read the container: `Info` and `Snapshot` alongside the others

`Info` reads the container field by field: the port mappings under `netInsMutex`, then the state
and the events, each under its own mutex; between two of its reads, other calls may take effect.
`Snapshot` holds the read locks of the four limits, of the port mappings and of the traffic rules
for all of its run, so none of these changes while it runs, but reads the state and the events
each under its own mutex. Both take the properties through `Properties()`, which hands out the
container's own map with no lock taken: what they report of the properties is whatever the map
holds when it is read, so no result below is about them.

A `Call` is a call that returns a value, as its atomic steps; `Call.run` runs them in turn, and
the steps of `Info` and `Snapshot` run in turn are the plain programs (`infoCall_run`,
`snapshotCall_run`). `Call.Runs` runs a call alongside the server of the `Interleaving` module:
before each of its steps the server takes any steps of its own. In order:

* `Call.Runs.seen`: a call whose steps keep the container ran each step on the world of a
  server state between the call's start and its return; `Call.Runs.of_run` says the plain run,
  with no other call in between, is one of these runs;
* `Server.info_reads`: each of the state and the events `Info` reports is what the calls that
  took effect up to some point within the `Info` call made of it, and when the pool never hands
  out port 0 every port mapping it reports has two non-zero ports;
* `Server.snapshot_cut`: the limits and the traffic rules a `Snapshot` holds are those of one
  point of the history within the call, a consistent cut, which is what its read locks buy;
  `Server.snapshot_replayable`: every port mapping and rule it holds is one `Restore` can
  replay.
-/

namespace GardenLinux

namespace LinuxBackend

/-! ## `Info` -/

/-- `api.PortMapping`. -/
structure PortMapping where
  hostPort : UInt32
  containerPort : UInt32
  deriving DecidableEq, Repr

/-- `api.ContainerInfo`, with the stats of the quota and bandwidth managers of types `Ds` and
`Bs`, and the properties as the map `Properties()` returns. -/
structure ContainerInfo (Ds Bs : Type) where
  state : GoString
  events : List GoString
  hostIP : GoString
  containerIP : GoString
  containerPath : GoString
  processIDs : List UInt32
  properties : GoString → Option GoString
  memoryStat : ContainerMemoryStat
  cpuStat : ContainerCPUStat
  diskStat : Ds
  bandwidthStat : Bs
  mappedPorts : List PortMapping

/-- The collaborators `Info` asks that `Host` leaves out: the quota manager's usage of a user,
the bandwidth manager's limits, and the addresses the network fence fills in
(`Network.Info`). -/
structure InfoHost (σ Ds Bs : Type) where
  getUsage : Nat → σ → Except GoError Ds
  getLimits : σ → Except GoError Bs
  networkInfo : σ → GoString × GoString

def cpuacct : GoString := GoString.ofString "cpuacct"
def memoryStatFile : GoString := GoString.ofString "memory.stat"
def cpuacctUsage : GoString := GoString.ofString "cpuacct.usage"
def cpuacctStat : GoString := GoString.ofString "cpuacct.stat"

section Primitives

variable {σ Bw Dk α : Type}

/-- A read of the container's fields, under the mutex that guards them. -/
def readC (f : LinuxContainer Bw Dk → α) : M σ Bw Dk α := fun w => .ok (f w.c) w

@[simp] theorem readC_apply (f : LinuxContainer Bw Dk → α) (w : World σ Bw Dk) :
    (readC f : M σ Bw Dk α) w = .ok (f w.c) w := rfl

/-- Reading a field of the container keeps it. -/
theorem keepsC_readC (f : LinuxContainer Bw Dk → α) : KeepsC (readC f : M σ Bw Dk α) :=
  ⟨fun _ _ _ he => by cases he; rfl, fun _ _ _ he => by cases he⟩

end Primitives

/-- The port mapping `Info` reports for a `NetIn`. -/
def NetInSpec.toPortMapping (spec : NetInSpec) : PortMapping := ⟨spec.hostPort, spec.containerPort⟩

section Operations

variable {σ Bw Dk Ds Bs : Type} (h : Host σ Bw Dk) (ih : InfoHost σ Ds Bs)

/-- `Info`: the cgroup files, the disk usage and the bandwidth limits, the first error returned;
then the port mappings, the processes, the state, the events, the properties (the map itself, in
Go, read with no lock), the path, and the fence's addresses. -/
def info : M σ Bw Dk (ContainerInfo Ds Bs) := do
  let memoryStat ← readE (h.cgroupsGet memory memoryStatFile)
  let cpuUsage ← readE (h.cgroupsGet cpuacct cpuacctUsage)
  let cpuStat ← readE (h.cgroupsGet cpuacct cpuacctStat)
  let r ← read h.resources
  let diskStat ← readE (ih.getUsage r.userUID)
  let bandwidthStat ← readE ih.getLimits
  let netIns ← readC (·.netIns)
  let processIDs ← read h.activeProcesses
  let state ← readC (·.state)
  let events ← readC (·.events)
  let properties ← readC propertyMap
  let path ← readC (·.path)
  let ips ← read ih.networkInfo
  pure ⟨state, events, ips.1, ips.2, path, processIDs, properties, parseMemoryStat memoryStat,
    parseCPUStat cpuUsage cpuStat, diskStat, bandwidthStat, netIns.map NetInSpec.toPortMapping⟩

end Operations

/-! ## Calls that return a value -/

/-- A call as its atomic steps, returning a value. -/
inductive Call (σ Bw Dk α : Type) : Type 1
  | ret (a : α)
  | step {β : Type} (act : M σ Bw Dk β) (k : β → Call σ Bw Dk α)

section Calls

variable {σ Bw Dk α : Type}

/-- The steps, run in turn. -/
def Call.run : Call σ Bw Dk α → M σ Bw Dk α
  | .ret a => pure a
  | .step act k => act >>= fun b => (k b).run

/-- Every step keeps the container. -/
def Call.Keeps : Call σ Bw Dk α → Prop
  | .ret _ => True
  | .step act k => KeepsC act ∧ ∀ b, (k b).Keeps

/-- The steps ran on the worlds `ws`, in turn, and the call returned `a`. -/
inductive Call.RunsOn : Call σ Bw Dk α → List (World σ Bw Dk) → α → Prop
  | ret (a : α) : Call.RunsOn (.ret a) [] a
  | step {β : Type} {act : M σ Bw Dk β} {k : β → Call σ Bw Dk α} {w w' : World σ Bw Dk} {b : β}
      {ws : List (World σ Bw Dk)} {a : α} :
      act w = .ok b w' → Call.RunsOn (k b) ws a → Call.RunsOn (.step act k) (w :: ws) a

variable (h : Host σ Bw Dk)

/-- A call's run alongside the server, from the server as the call starts to the server as it
returns: before each of the call's steps, and before it returns, the server takes any steps of
its own. -/
inductive Call.Runs : Server σ Bw Dk → Call σ Bw Dk α → Server σ Bw Dk → Except GoError α → Prop
  | ret (s : Server σ Bw Dk) (a : α) : Call.Runs s (.ret a) s (.ok a)
  | server {s s' s'' : Server σ Bw Dk} {c : Call σ Bw Dk α} {r : Except GoError α} :
      Server.Step h s s' → Call.Runs s' c s'' r → Call.Runs s c s'' r
  | ok {s s'' : Server σ Bw Dk} {β : Type} {act : M σ Bw Dk β} {k : β → Call σ Bw Dk α} {b : β}
      {w' : World σ Bw Dk} {r : Except GoError α} :
      act s.w = .ok b w' → Call.Runs { s with w := w' } (k b) s'' r →
        Call.Runs s (.step act k) s'' r
  | error {s : Server σ Bw Dk} {β : Type} {act : M σ Bw Dk β} {k : β → Call σ Bw Dk α}
      {e : GoError} {w' : World σ Bw Dk} :
      act s.w = .error e w' → Call.Runs s (.step act k) { s with w := w' } (.error e)

/-- The server's steps, any number. -/
abbrev Server.Steps : Server σ Bw Dk → Server σ Bw Dk → Prop := Relation.ReflTransGen (Server.Step h)

end Calls

/-! ## Where a call's steps run

A step that keeps the container changes at most the host, which a step of the server may do too;
so a run of a call is a run of the server, and the call's steps ran on the worlds of server
states between its start and its return.
-/

section Runs

variable {σ Bw Dk α : Type} {h : Host σ Bw Dk} {w₀ : World σ Bw Dk} {s s' s'' : Server σ Bw Dk}

/-- A step of the server only adds to the history. -/
theorem Server.Step.hist_grows (hs : Server.Step h s s') : s.hist <+: s'.hist := by
  cases hs with
  | ok _ _ => split <;> simp
  | call | error | host => exact List.prefix_refl _

/-- Steps of the server only add to the history. -/
theorem Server.Steps.hist_grows (hs : Server.Steps h s s') : s.hist <+: s'.hist := by
  induction hs with
  | refl => exact List.prefix_refl _
  | tail _ hst ih => exact ih.trans hst.hist_grows

/-- Steps from a reached server reach a server. -/
theorem Server.Reach.steps (hr : Server.Reach h w₀ s) (hs : Server.Steps h s s') :
    Server.Reach h w₀ s' := by
  induction hs with
  | refl => exact hr
  | tail _ hst ih => exact ih.step hst

/-- A step that keeps the container is a step of the host. -/
theorem Server.Step.of_keepsC {w' : World σ Bw Dk} (hc : w'.c = s.w.c) :
    Server.Step h s { s with w := w' } := by
  obtain ⟨c', st⟩ := w'
  dsimp only at hc
  subst hc
  exact .host s st

/-- **Where a call's steps ran**: a call whose steps keep the container, run alongside the
server to a result, ran its steps in turn on the worlds of server states between its start and
its return. Reference: `src/unnamed/part_000:197` and `:458`. -/
theorem Call.Runs.seen {c : Call σ Bw Dk α} {r : Except GoError α}
    (hr : Call.Runs h s c s'' r) (hk : c.Keeps) :
    Server.Steps h s s'' ∧ ∀ a, r = .ok a → ∃ ss : List (Server σ Bw Dk),
      (∀ x ∈ ss, Server.Steps h s x ∧ Server.Steps h x s'') ∧ c.RunsOn (ss.map (·.w)) a := by
  induction hr with
  | ret s a =>
    refine ⟨.refl, fun _ ha => ⟨[], by simp, ?_⟩⟩
    cases ha
    exact .ret a
  | server hs _ ih =>
    obtain ⟨hss, hseen⟩ := ih hk
    refine ⟨.head hs hss, fun a ha => ?_⟩
    obtain ⟨ss, hmem, hon⟩ := hseen a ha
    exact ⟨ss, fun x hx => ⟨.head hs (hmem x hx).1, (hmem x hx).2⟩, hon⟩
  | @ok s _ _ _ _ _ w' _ hact _ ih =>
    have hstep := Server.Step.of_keepsC (h := h) (hk.1.1 _ _ _ hact)
    obtain ⟨hss, hseen⟩ := ih (hk.2 _)
    refine ⟨.head hstep hss, fun a ha => ?_⟩
    obtain ⟨ss, hmem, hon⟩ := hseen a ha
    refine ⟨s :: ss, fun x hx => ?_, .step hact hon⟩
    rcases List.mem_cons.1 hx with rfl | hx
    · exact ⟨.refl, .head hstep hss⟩
    · exact ⟨.head hstep (hmem x hx).1, (hmem x hx).2⟩
  | error hact => exact ⟨.single (.of_keepsC (hk.1.2 _ _ _ hact)), fun _ ha => by cases ha⟩

/-- The plain run of a call, with no step of another in between, is a run alongside the
server. -/
theorem Call.Runs.of_run {c : Call σ Bw Dk α} {a : α} {w' : World σ Bw Dk}
    (hc : c.run s.w = .ok a w') : Call.Runs h s c { s with w := w' } (.ok a) := by
  induction c generalizing s with
  | ret =>
    cases hc
    exact .ret s _
  | step act k ih =>
    obtain ⟨b, w1, h1, h2⟩ := bind_ok.1 hc
    exact .ok h1 (ih b h2)

/-- The view after the calls of a history, in turn. -/
def viewAfter (w₀ : World σ Bw Dk) (hist : List (Nat × Op Bw Dk)) : View Bw Dk :=
  (hist.map Prod.snd).foldl (fun v op => op.viewStep v) w₀.c.view

/-- A world a call's step ran on is one of a reached server, whose history lies between the
call's start and its return. -/
theorem Server.Reach.seen_point (hr : Server.Reach h w₀ s) {ss : List (Server σ Bw Dk)}
    (hmem : ∀ x ∈ ss, Server.Steps h s x ∧ Server.Steps h x s'') {w : World σ Bw Dk}
    (hw : w ∈ ss.map (·.w)) :
    ∃ x, Server.Reach h w₀ x ∧ x.w = w ∧ s.hist <+: x.hist ∧ x.hist <+: s''.hist := by
  obtain ⟨x, hx, rfl⟩ := List.mem_map.1 hw
  exact ⟨x, hr.steps (hmem x hx).1, rfl, (hmem x hx).1.hist_grows, (hmem x hx).2.hist_grows⟩

/-- A call that ran to the end ran its first step on the first world it saw, then the rest. -/
theorem Call.RunsOn.step_inv {β : Type} {act : M σ Bw Dk β} {k : β → Call σ Bw Dk α}
    {ws : List (World σ Bw Dk)} {a : α} (hr : (Call.step act k).RunsOn ws a) :
    ∃ w ws' b w', ws = w :: ws' ∧ act w = .ok b w' ∧ (k b).RunsOn ws' a := by
  cases hr with
  | step h1 h2 => exact ⟨_, _, _, _, rfl, h1, h2⟩

/-- Reading a field of the container returns that field. -/
theorem readC_ok {f : LinuxContainer Bw Dk → α} {w w' : World σ Bw Dk} {b : α}
    (h1 : (readC f : M σ Bw Dk α) w = .ok b w') : b = f w.c := by
  cases h1; rfl

end Runs

/-! ## `Info` alongside other calls -/

section Info

variable {σ Bw Dk Ds Bs : Type} (h : Host σ Bw Dk) (ih : InfoHost σ Ds Bs)

/-- `Info` as its atomic steps: each answer of a collaborator, and each read of the container
under its own mutex. -/
def infoCall : Call σ Bw Dk (ContainerInfo Ds Bs) :=
  .step (readE (h.cgroupsGet memory memoryStatFile)) fun memoryStat =>
  .step (readE (h.cgroupsGet cpuacct cpuacctUsage)) fun cpuUsage =>
  .step (readE (h.cgroupsGet cpuacct cpuacctStat)) fun cpuStat =>
  .step (read h.resources) fun r =>
  .step (readE (ih.getUsage r.userUID)) fun diskStat =>
  .step (readE ih.getLimits) fun bandwidthStat =>
  .step (readC (·.netIns)) fun netIns =>
  .step (read h.activeProcesses) fun processIDs =>
  .step (readC (·.state)) fun state =>
  .step (readC (·.events)) fun events =>
  .step (readC propertyMap) fun properties =>
  .step (readC (·.path)) fun path =>
  .step (read ih.networkInfo) fun ips =>
  .ret ⟨state, events, ips.1, ips.2, path, processIDs, properties, parseMemoryStat memoryStat,
    parseCPUStat cpuUsage cpuStat, diskStat, bandwidthStat, netIns.map NetInSpec.toPortMapping⟩

/-- Run in turn, the steps are `Info`. -/
theorem infoCall_run : (infoCall h ih).run = info h ih := rfl

/-- No step of `Info` changes the container. Reference: `src/unnamed/part_000:458`. -/
theorem infoCall_keeps : (infoCall h ih).Keeps := by
  repeat' first
    | exact keepsC_readE _ | exact keepsC_read _ | exact keepsC_readC _ | exact trivial
    | refine ⟨?_, fun _ => ?_⟩

/-- What `Info` reports of the state, the events and the port mappings it read each from one of
the worlds it ran on. -/
theorem infoCall_runsOn {ws : List (World σ Bw Dk)} {i : ContainerInfo Ds Bs}
    (hr : (infoCall h ih).RunsOn ws i) :
    (∃ w ∈ ws, i.state = w.c.state) ∧ (∃ w ∈ ws, i.events = w.c.events) ∧
      ∃ w ∈ ws, i.mappedPorts = w.c.netIns.map NetInSpec.toPortMapping := by
  obtain ⟨w1, ws, _, _, rfl, -, hr⟩ := hr.step_inv
  obtain ⟨w2, ws, _, _, rfl, -, hr⟩ := hr.step_inv
  obtain ⟨w3, ws, _, _, rfl, -, hr⟩ := hr.step_inv
  obtain ⟨w4, ws, _, _, rfl, -, hr⟩ := hr.step_inv
  obtain ⟨w5, ws, _, _, rfl, -, hr⟩ := hr.step_inv
  obtain ⟨w6, ws, _, _, rfl, -, hr⟩ := hr.step_inv
  obtain ⟨wNetIns, ws, _, _, rfl, hNetIns, hr⟩ := hr.step_inv
  obtain ⟨w8, ws, _, _, rfl, -, hr⟩ := hr.step_inv
  obtain ⟨wState, ws, _, _, rfl, hState, hr⟩ := hr.step_inv
  obtain ⟨wEvents, ws, _, _, rfl, hEvents, hr⟩ := hr.step_inv
  obtain ⟨w11, ws, _, _, rfl, -, hr⟩ := hr.step_inv
  obtain ⟨w12, ws, _, _, rfl, -, hr⟩ := hr.step_inv
  obtain ⟨w13, ws, _, _, rfl, -, hr⟩ := hr.step_inv
  cases hr
  refine ⟨⟨wState, by simp, readC_ok hState⟩, ⟨wEvents, by simp, readC_ok hEvents⟩,
    ⟨wNetIns, by simp, ?_⟩⟩
  rw [readC_ok hNetIns]

/-- **`Info` alongside other calls.** Whatever calls run alongside it, and however the host
changes, each of the state and the events `Info` reports is what the calls that took effect up
to some point within the `Info` call made of it, in the order they took effect; when the pool
never hands out port 0, each port mapping it reports has two non-zero ports. Reference:
`src/unnamed/part_000:458`. -/
theorem Server.info_reads (hp : h.AcquiresNonzero) {w₀ : World σ Bw Dk}
    (h0 : Replayable w₀.c) {s s'' : Server σ Bw Dk} (hr : Server.Reach h w₀ s)
    {i : ContainerInfo Ds Bs} (hi : (infoCall h ih).Runs h s s'' (.ok i)) :
    (∃ p, s.hist <+: p ∧ p <+: s''.hist ∧ i.state = (viewAfter w₀ p).state) ∧
      (∃ p, s.hist <+: p ∧ p <+: s''.hist ∧ i.events = (viewAfter w₀ p).events) ∧
      ∀ m ∈ i.mappedPorts, m.hostPort ≠ 0 ∧ m.containerPort ≠ 0 := by
  obtain ⟨ss, hmem, hon⟩ := (hi.seen (infoCall_keeps h ih)).2 i rfl
  obtain ⟨⟨w1, hw1, hst⟩, ⟨w2, hw2, hev⟩, ⟨w4, hw4, hmp⟩⟩ := infoCall_runsOn h ih hon
  have point := fun {w} (hw : w ∈ ss.map (·.w)) => hr.seen_point hmem hw
  obtain ⟨x1, hx1, rfl, hp1, hq1⟩ := point hw1
  obtain ⟨x2, hx2, rfl, hp2, hq2⟩ := point hw2
  obtain ⟨x4, hx4, rfl, -, -⟩ := point hw4
  refine ⟨⟨_, hp1, hq1, ?_⟩, ⟨_, hp2, hq2, ?_⟩, ?_⟩
  · exact hst.trans (congrArg View.state hx1.inv.view)
  · exact hev.trans (congrArg View.events hx2.inv.view)
  · have hrep : Replayable x4.w.c :=
      Server.invariant (fun op => (Op.proc_frames op).mono fun _ _ hm => hm.replayable hp) h0 hx4
    intro m hm
    rw [hmp] at hm
    obtain ⟨n, hn, rfl⟩ := List.mem_map.1 hm
    exact hrep.netIns n hn

/-- The collaborators of `Info` that answer and have nothing to say. -/
def InfoHost.quiet : InfoHost Unit Nat Nat := ⟨fun _ _ => .ok 0, fun _ => .ok 0, fun _ => ([], [])⟩

/-- A `NetIn` for port 0, run to its end on the quiet host. -/
def netInRun : List (Event Unit Nat Nat) :=
  [.call (.netIn 0 0), .run 0, .run 0, .run 0, .run 0, .run 0, .run 0]

/-- `Info` after a `NetIn` for port 0 on the quiet host. -/
theorem info_reads_afterNetIn :
    let s := netInRun.foldl (Server.perform Host.quiet) (Server.init freshWorld)
    match (infoCall Host.quiet InfoHost.quiet).run s.w with
    | .ok i _ =>
      (∃ p, s.hist <+: p ∧ p <+: s.hist ∧ i.state = (viewAfter freshWorld p).state) ∧
        (∃ p, s.hist <+: p ∧ p <+: s.hist ∧ i.events = (viewAfter freshWorld p).events) ∧
        ∀ m ∈ i.mappedPorts, m.hostPort ≠ 0 ∧ m.containerPort ≠ 0
    | .error _ _ => False :=
  Server.info_reads Host.quiet InfoHost.quiet (fun _ _ hq => by cases hq; decide)
    (Replayable.new [] [] [] [] 0 []) (Server.Reach.init.performAll _) (Call.Runs.of_run rfl)

end Info

/-! ## `Snapshot` alongside other calls -/

section Snapshot

variable {σ Bw Dk : Type} (h : Host σ Bw Dk)

/-- `Snapshot` as its atomic steps: the processes; the state and the events, each under its own
mutex; the limits, the port mappings and the traffic rules, which the read locks it holds keep
for all of its run, in one step with the fields no call changes; the resources; the properties,
read with no lock; the fence's JSON; the write. -/
def snapshotCall : Call σ Bw Dk (ContainerSnapshot Bw Dk) :=
  .step (read h.activeProcesses) fun processes =>
  .step (readC (·.state)) fun state =>
  .step (readC (·.events)) fun events =>
  .step getC fun c =>
  .step (read h.resources) fun r =>
  .step (readC (·.properties)) fun properties =>
  .step (readE h.networkJSON) fun network =>
  let s := { c.toSnapshot processes r with state, events, properties }
  let s := { s with resources := { s.resources with network := network } }
  .step (call (h.encode s)) fun _ =>
  .ret s

/-- Run in turn, the steps are `Snapshot`. -/
theorem snapshotCall_run : (snapshotCall h).run = snapshot h := rfl

/-- No step of `Snapshot` changes the container. Reference: `src/unnamed/part_000:197`. -/
theorem snapshotCall_keeps : (snapshotCall h).Keeps := by
  repeat' first
    | exact keepsC_readE _ | exact keepsC_read _ | exact keepsC_readC _ | exact keepsC_getC
    | exact keepsC_call _ | exact trivial | refine ⟨?_, fun _ => ?_⟩

/-- The limits, the port mappings and the traffic rules a `Snapshot` holds are one world's. -/
theorem snapshotCall_runsOn {ws : List (World σ Bw Dk)} {snap : ContainerSnapshot Bw Dk}
    (hr : (snapshotCall h).RunsOn ws snap) :
    ∃ w ∈ ws, snap.limits = ⟨w.c.currentBandwidthLimits, w.c.currentCPULimits,
      w.c.currentDiskLimits, w.c.currentMemoryLimits⟩ ∧
      snap.netIns = w.c.netIns ∧ snap.netOuts = w.c.netOuts := by
  obtain ⟨w1, ws, _, _, rfl, -, hr⟩ := hr.step_inv
  obtain ⟨w2, ws, _, _, rfl, -, hr⟩ := hr.step_inv
  obtain ⟨w3, ws, _, _, rfl, -, hr⟩ := hr.step_inv
  obtain ⟨wCut, ws, _, _, rfl, hCut, hr⟩ := hr.step_inv
  cases hCut
  obtain ⟨w5, ws, _, _, rfl, -, hr⟩ := hr.step_inv
  obtain ⟨w6, ws, _, _, rfl, -, hr⟩ := hr.step_inv
  obtain ⟨w7, ws, _, _, rfl, -, hr⟩ := hr.step_inv
  obtain ⟨w8, ws, _, _, rfl, -, hr⟩ := hr.step_inv
  cases hr
  exact ⟨wCut, by simp, rfl, rfl, rfl⟩

variable {h} {w₀ : World σ Bw Dk} {s s'' : Server σ Bw Dk} {snap : ContainerSnapshot Bw Dk}

/-- The point of the server's run where a `Snapshot` read its limits, port mappings and traffic
rules. -/
theorem Server.snapshot_point (hr : Server.Reach h w₀ s)
    (hc : (snapshotCall h).Runs h s s'' (.ok snap)) :
    ∃ x, Server.Reach h w₀ x ∧ s.hist <+: x.hist ∧ x.hist <+: s''.hist ∧
      snap.limits = ⟨x.w.c.currentBandwidthLimits, x.w.c.currentCPULimits,
        x.w.c.currentDiskLimits, x.w.c.currentMemoryLimits⟩ ∧
      snap.netIns = x.w.c.netIns ∧ snap.netOuts = x.w.c.netOuts := by
  obtain ⟨ss, hmem, hon⟩ := (hc.seen (snapshotCall_keeps h)).2 snap rfl
  obtain ⟨w, hw, hcut⟩ := snapshotCall_runsOn h hon
  obtain ⟨x, hx, rfl, hp, hq⟩ := hr.seen_point hmem hw
  exact ⟨x, hx, hp, hq, hcut⟩

/-- **`Snapshot` takes a consistent cut.** Whatever calls run alongside it, and however the host
changes, the four limits and the traffic rules a `Snapshot` holds are what the calls that took
effect up to one point within the `Snapshot` call made of them, in the order they took effect,
and its port mappings are the container's at that same point. Reference: `src/unnamed/part_000:197`.
-/
theorem Server.snapshot_cut (hr : Server.Reach h w₀ s)
    (hc : (snapshotCall h).Runs h s s'' (.ok snap)) :
    ∃ x, Server.Reach h w₀ x ∧ s.hist <+: x.hist ∧ x.hist <+: s''.hist ∧
      snap.limits = ⟨(viewAfter w₀ x.hist).bandwidth, (viewAfter w₀ x.hist).cpu,
        (viewAfter w₀ x.hist).disk, (viewAfter w₀ x.hist).memory⟩ ∧
      snap.netIns = x.w.c.netIns ∧ snap.netOuts = (viewAfter w₀ x.hist).netOuts := by
  obtain ⟨x, hx, hp, hq, hlim, hin, hout⟩ := Server.snapshot_point hr hc
  have hv : x.w.c.view = viewAfter w₀ x.hist := hx.inv.view
  refine ⟨x, hx, hp, hq, ?_, hin, hout.trans (congrArg View.netOuts hv)⟩
  rw [hlim, ← hv]
  rfl

/-- A `Snapshot` after a `NetIn` for port 0 on the quiet host. -/
theorem snapshot_cut_afterNetIn :
    let s := netInRun.foldl (Server.perform Host.quiet) (Server.init freshWorld)
    match (snapshotCall Host.quiet).run s.w with
    | .ok snap _ =>
      ∃ x, Server.Reach Host.quiet freshWorld x ∧ s.hist <+: x.hist ∧ x.hist <+: s.hist ∧
        snap.limits = ⟨(viewAfter freshWorld x.hist).bandwidth, (viewAfter freshWorld x.hist).cpu,
          (viewAfter freshWorld x.hist).disk, (viewAfter freshWorld x.hist).memory⟩ ∧
        snap.netIns = x.w.c.netIns ∧ snap.netOuts = (viewAfter freshWorld x.hist).netOuts
    | .error _ _ => False :=
  Server.snapshot_cut (Server.Reach.init.performAll _) (Call.Runs.of_run rfl)

/-- **Every snapshot can be replayed.** Whatever calls run alongside a `Snapshot`, when the pool
never hands out port 0, each port mapping it holds has two non-zero ports, and each traffic rule
names a port or a network: `Restore` asks for each mapping's own ports again, and each rule is
one `NetOut` accepts. Reference: `src/unnamed/part_000:197` and `:291`. -/
theorem Server.snapshot_replayable (hp : h.AcquiresNonzero) (h0 : Replayable w₀.c)
    (hr : Server.Reach h w₀ s) (hc : (snapshotCall h).Runs h s s'' (.ok snap)) :
    (∀ n ∈ snap.netIns, n.hostPort ≠ 0 ∧ n.containerPort ≠ 0) ∧
      ∀ o ∈ snap.netOuts, o.port ≠ 0 ∨ o.network ≠ [] := by
  obtain ⟨x, hx, -, -, -, hin, hout⟩ := Server.snapshot_point hr hc
  have hrep : Replayable x.w.c :=
    Server.invariant (fun op => (Op.proc_frames op).mono fun _ _ hm => hm.replayable hp) h0 hx
  exact ⟨hin ▸ hrep.netIns, hout ▸ hrep.netOuts⟩

/-- A `Snapshot` after a `NetIn` for port 0 on the quiet host, whose pool hands out 61001. -/
theorem snapshot_replayable_afterNetIn :
    let s := netInRun.foldl (Server.perform Host.quiet) (Server.init freshWorld)
    match (snapshotCall Host.quiet).run s.w with
    | .ok snap _ =>
      (∀ n ∈ snap.netIns, n.hostPort ≠ 0 ∧ n.containerPort ≠ 0) ∧
        ∀ o ∈ snap.netOuts, o.port ≠ 0 ∨ o.network ≠ []
    | .error _ _ => False :=
  Server.snapshot_replayable (h := Host.quiet) (fun _ _ hq => by cases hq; decide)
    (Replayable.new [] [] [] [] 0 [])
    (Server.Reach.init.performAll _) (Call.Runs.of_run rfl)

end Snapshot

end LinuxBackend

end GardenLinux
