import GardenLinux.LinuxBackend.View

/-!
# Concurrent calls on one container

The server runs each call on a container in a goroutine of its own, so calls interleave. Each
field of `LinuxContainer` has its own mutex, and a call takes it only around its read or write of
that field, so between two of a call's accesses to the container or calls to a collaborator
another call may act. `Proc` is a call as its atomic steps (`Op.proc`): one per access to a field
under its mutex, one per call to a collaborator outside them, and one for each group of calls
made while a mutex is held. Run alone, the steps are the call (`Op.proc_run`).

A `Server` is a container with the calls in progress on it, and `Server.Step` lets any of them
take its next step, a new call arrive, or the host change, in any order. Each call takes effect
on what a caller sees (the `View`) at one step, the write of the field it sets (`Proc.Linear`).
So the view is linearizable: at every point of every interleaving it is the view machine run
over the calls that took effect, in the order they did (`Server.view_hist`), and a call that
returned took effect exactly once (`Server.returned_applied_once`). The host is not part of the
view: in `start_stop_crossed` a `Start` and a `Stop` cross, `stop.sh` runs last, and the
container is left `active`.

Invariants of single containers carry over to interleavings. Every step of a call keeps the
container, records a notifier, or writes the call's field (`Op.proc_frames`), so what every such
move keeps holds of every container a server reaches (`Server.invariant`): it is replayable
(`Server.reach_replayable`). A recorded memory limit comes with a notifier too
(`Server.reach_memoryWatched`), though not every step keeps that: `LimitMemory`'s write of the
limit counts on the notifier its first step recorded, which no step of any call drops
(`Proc.Guards`, `Server.guarded`).
-/

namespace GardenLinux

namespace LinuxBackend

open Strconv

/-! ## Calls as atomic steps -/

/-- What remains of a call: its atomic steps in order, each handing its result to the rest. `lp`
marks the step at which the call takes effect on the view. -/
inductive Proc (σ Bw Dk : Type) : Type 1
  | done
  | step {α : Type} (lp : Bool) (act : M σ Bw Dk α) (k : α → Proc σ Bw Dk)

/-- The steps run one after another, nothing in between. -/
def Proc.run {σ Bw Dk : Type} : Proc σ Bw Dk → M σ Bw Dk Unit
  | .done => pure ()
  | .step _ act k => act >>= fun a => (k a).run

section Steps

variable {σ Bw Dk : Type} (h : Host σ Bw Dk)

/-- The steps of `NetIn` once its host port is known: read the path and the environment, run
`net.sh in`, and append the mapping under `netInsMutex`. -/
def netInProc (hostPort containerPort : UInt32) : Proc σ Bw Dk :=
  let containerPort := if containerPort = 0 then hostPort else containerPort
  .step false getC fun c =>
  .step false (read (h.getenv pathVar)) fun path =>
  .step false (call (h.run ⟨[c.path, netSh], [GoString.ofString "in"],
    [GoString.ofString "HOST_PORT=" ++ formatUint hostPort.toNat,
      GoString.ofString "CONTAINER_PORT=" ++ formatUint containerPort.toNat,
      GoString.ofString "PATH=" ++ path]⟩)) fun _ =>
  .step true (modifyC fun c => { c with netIns := c.netIns ++ [⟨hostPort, containerPort⟩] })
    fun _ => .done

/-- The steps of each call, as the code takes its mutexes. A field written under its mutex is a
step of its own, and it is the step at which the call takes effect; `RemoveProperty` finds and
deletes the key under one lock. `startOomNotifier` and `stopOomNotifier` hold `oomMutex` across
their calls to the runner, one step each. Every other call to a collaborator is a step of its
own (`Acquire` and `AddPort` take the pool's and the resources' locks in turn), and so is each
read of the container's fixed fields, its path and ID. -/
def Op.proc : Op Bw Dk → Proc σ Bw Dk
  | .limitBandwidth l =>
    .step false (call (h.bandwidthSetLimits l)) fun _ =>
    .step true (modifyC fun c => { c with currentBandwidthLimits := some l }) fun _ => .done
  | .limitCPU l =>
    .step false (call (h.cgroupsSet cpu cpuShares (formatUint l.limitInShares.toNat))) fun _ =>
    .step true (modifyC fun c => { c with currentCPULimits := some l }) fun _ => .done
  | .limitDisk l =>
    .step false (call (h.quotaSetLimits l)) fun _ =>
    .step true (modifyC fun c => { c with currentDiskLimits := some l }) fun _ => .done
  | .limitMemory l =>
    .step false (startOomNotifier h) fun _ =>
    .step false (callIgnoring (h.cgroupsSet memory memoryLimitInBytes
      (formatUint l.limitInBytes.toNat))) fun _ =>
    .step false (callIgnoring (h.cgroupsSet memory memoryMemswLimitInBytes
      (formatUint l.limitInBytes.toNat))) fun _ =>
    .step false (call (h.cgroupsSet memory memoryLimitInBytes
      (formatUint l.limitInBytes.toNat))) fun _ =>
    .step true (modifyC fun c => { c with currentMemoryLimits := some l }) fun _ => .done
  | .netIn hp cp =>
    if hp = 0 then
      .step false (ask h.acquirePort) fun p =>
      .step false (effect (h.addPort p)) fun _ => netInProc h p cp
    else netInProc h hp cp
  | .netOut network port =>
    .step false getC fun c =>
    .step false (read (h.getenv pathVar)) fun path =>
    .step false (readE fun _ => netOutEnv network port path) fun env =>
    .step false (call (h.run ⟨[c.path, netSh], [GoString.ofString "out"], env⟩)) fun _ =>
    .step true (modifyC fun c => { c with netOuts := c.netOuts ++ [⟨network, port⟩] })
      fun _ => .done
  | .start =>
    .step false getC fun c =>
    .step false (read (h.getenv pathVar)) fun path =>
    .step false (call (h.run ⟨[c.path, GoString.ofString "start.sh"], [],
      [GoString.ofString "id=" ++ c.id, GoString.ofString "PATH=" ++ path]⟩)) fun _ =>
    .step false (readE fun s => wshdPid (h.readFile · s) c) fun pid =>
    .step false (call (h.erect pid)) fun _ =>
    .step true (setState stateActive) fun _ => .done
  | .stop kill =>
    .step false getC fun c =>
    .step false (call (h.run ⟨[c.path, GoString.ofString "stop.sh"],
      if kill then [GoString.ofString "-w", GoString.ofString "0"] else [], []⟩)) fun _ =>
    .step false (stopOomNotifier h) fun _ =>
    .step true (setState stateStopped) fun _ => .done
  | .registerEvent e => .step true (LinuxBackend.registerEvent e) fun _ => .done
  | .setProperty k v => .step true (LinuxBackend.setProperty k v) fun _ => .done
  | .removeProperty k => .step true (LinuxBackend.removeProperty k) fun _ => .done

/-- **Run alone, a call's steps are the call.** Reference: `src/unnamed/part_000:354` to `:856`. -/
theorem Op.proc_run (op : Op Bw Dk) : (op.proc h).run = op.run h := by
  cases op
  case netIn hp cp =>
    simp only [Op.proc, Op.run, LinuxBackend.netIn, acquireHostPort]
    split
    · simp only [Proc.run, netInProc, bind_assoc, pure_bind]
    · simp only [Proc.run, netInProc, bind_assoc, pure_bind]
  case removeProperty k => exact bind_pure_unit
  all_goals rfl

end Steps

/-! ## Steps and the view -/

section Settle

variable {σ Bw Dk α : Type}

/-- A step that keeps the container, whatever it returns: a call to a collaborator, or a read. -/
def KeepsC (act : M σ Bw Dk α) : Prop :=
  (∀ w a w', act w = .ok a w' → w'.c = w.c) ∧ ∀ w e w', act w = .error e w' → w'.c = w.c

/-- Reading the container keeps it. -/
theorem keepsC_getC : KeepsC (getC : M σ Bw Dk _) :=
  ⟨fun _ _ _ he => by cases he; rfl, fun _ _ _ he => by cases he⟩

/-- Reading the host keeps the container. -/
theorem keepsC_read (f : σ → α) : KeepsC (read f : M σ Bw Dk α) :=
  ⟨fun _ _ _ he => by cases he; rfl, fun _ _ _ he => by cases he⟩

/-- A call whose error is ignored keeps the container. -/
theorem keepsC_effect (f : σ → σ) : KeepsC (effect f : M σ Bw Dk Unit) :=
  ⟨fun _ _ _ he => by cases he; rfl, fun _ _ _ he => by cases he⟩

/-- A call whose answer is ignored keeps the container. -/
theorem keepsC_callIgnoring (f : σ → σ × Option GoError) :
    KeepsC (callIgnoring f : M σ Bw Dk Unit) :=
  ⟨fun _ _ _ he => by cases he; rfl, fun _ _ _ he => by cases he⟩

/-- A read of the host that can fail keeps the container. -/
theorem keepsC_readE (f : σ → Except GoError α) : KeepsC (readE f : M σ Bw Dk α) := by
  constructor <;> intro w _ w' he <;> dsimp only [readE] at he <;> split at he <;> cases he <;> rfl

/-- A collaborator's call keeps the container, whether it succeeds or fails. -/
theorem keepsC_call (f : σ → σ × Option GoError) : KeepsC (call f : M σ Bw Dk Unit) := by
  constructor <;> intro w _ w' he <;> dsimp only [call] at he <;> split at he <;> cases he <;> rfl

/-- A collaborator's query keeps the container, whether it answers or fails. -/
theorem keepsC_ask (f : σ → σ × Except GoError α) : KeepsC (ask f : M σ Bw Dk α) := by
  constructor <;> intro w _ w' he <;> dsimp only [ask] at he <;> split at he <;> cases he <;> rfl

/-- `stopOomNotifier` kills the notifier and keeps the container. -/
theorem keepsC_stopOomNotifier (h : Host σ Bw Dk) : KeepsC (stopOomNotifier h) := by
  refine ⟨fun w _ w' he => stopOomNotifier_ok he, fun w _ w' he => ?_⟩
  rw [stopOomNotifier, bind_of_ok (getC_apply w)] at he
  rcases ho : w.c.oomNotifier with _ | o <;> simp only [ho] at he <;> cases he

/-- `startOomNotifier` sets the notifier when it fails too: it records it before starting it. -/
theorem startOomNotifier_error {h : Host σ Bw Dk} {w w' : World σ Bw Dk} {e : GoError}
    (he : startOomNotifier h w = .error e w') : ∃ o, w'.c = { w.c with oomNotifier := some o } := by
  rw [startOomNotifier, bind_of_ok (getC_apply w)] at he
  rcases ho : w.c.oomNotifier with _ | o <;> simp only [ho] at he
  · rw [bind_of_ok (read_apply _ w), bind_of_ok (modifyC_apply _ _)] at he
    dsimp only [call] at he
    split at he <;> cases he
    exact ⟨_, rfl⟩
  · cases he

/-- A step that acts on the view as `f` when it succeeds, and leaves the view when it fails. -/
def Settles (act : M σ Bw Dk α) (f : View Bw Dk → View Bw Dk) : Prop :=
  (∀ w a w', act w = .ok a w' → w'.c.view = f w.c.view) ∧
    ∀ w e w', act w = .error e w' → w'.c.view = w.c.view

/-- A write of the container that acts on its view as `f`. -/
theorem settles_modifyC {f : LinuxContainer Bw Dk → LinuxContainer Bw Dk}
    {g : View Bw Dk → View Bw Dk} (hf : ∀ c, (f c).view = g c.view) :
    Settles (modifyC f : M σ Bw Dk Unit) g :=
  ⟨fun w _ _ he => by cases he; exact hf w.c, fun _ _ _ he => by cases he⟩

/-- A step that keeps the container leaves the view. -/
theorem KeepsC.settles {act : M σ Bw Dk α} (hc : KeepsC act) : Settles act id :=
  ⟨fun w a w' he => by rw [hc.1 w a w' he]; rfl, fun w e w' he => by rw [hc.2 w e w' he]⟩

/-- The write of a call's field: the step at which the call takes effect. -/
theorem settles_apply (op : Op Bw Dk) (oom : Command) (ports : UInt32 × UInt32) :
    Settles (modifyC fun c => op.apply c oom ports : M σ Bw Dk Unit) op.viewStep :=
  settles_modifyC fun c => view_apply c oom ports op

/-- `startOomNotifier` leaves the view: the notifier is no part of it. -/
theorem settles_startOomNotifier (h : Host σ Bw Dk) : Settles (startOomNotifier h) id := by
  refine ⟨fun w _ w' he => ?_, fun w _ w' he => ?_⟩
  · obtain ⟨o, ho⟩ := startOomNotifier_ok he
    rw [ho]; rfl
  · obtain ⟨o, ho⟩ := startOomNotifier_error he
    rw [ho]; rfl

/-- `RemoveProperty` on a key it does not find changes nothing. -/
theorem removeProperty_error {k : GoString} {w w' : World σ Bw Dk} {e : GoError}
    (he : removeProperty k w = .error e w') : w' = w := by
  rw [removeProperty, bind_of_ok (getC_apply w)] at he
  rcases hk : w.c.properties.lookup k with _ | v <;> simp only [hk] at he <;> cases he
  rfl

/-- `RemoveProperty` finds and deletes the key under one lock: it takes effect or fails whole. -/
theorem settles_removeProperty (k : GoString) :
    Settles (removeProperty k : M σ Bw Dk Unit) (Op.removeProperty k).viewStep := by
  refine ⟨fun w _ w' he => ?_, fun w _ w' he => ?_⟩
  · rw [removeProperty_ok he]
    exact view_apply w.c default default (.removeProperty k)
  · rw [removeProperty_error he]

end Settle

/-! ## Taking effect once -/

section Linear

variable {σ Bw Dk : Type}

/-- The rest of a call to `op` takes effect on the view at exactly one step of every path that
returns; `b` says whether it already has. Every other step leaves the view as it is. -/
def Proc.Linear (op : Op Bw Dk) : Bool → Proc σ Bw Dk → Prop
  | b, .done => b = true
  | b, .step false act k => Settles act id ∧ ∀ a, (k a).Linear op b
  | b, .step true act k => b = false ∧ Settles act op.viewStep ∧ ∀ a, (k a).Linear op true

variable (h : Host σ Bw Dk)

/-- The steps of `NetIn` once its port is known take effect once, at the append under
`netInsMutex`. Reference: `src/unnamed/part_000:768`. -/
theorem netInProc_linear (hp cp p : UInt32) :
    (netInProc h p cp).Linear (.netIn hp cp) false :=
  ⟨(keepsC_getC).settles, fun _ => ⟨(keepsC_read _).settles, fun _ => ⟨(keepsC_call _).settles,
    fun _ => ⟨rfl, settles_apply (.netIn hp cp) default (p, if cp = 0 then p else cp),
      fun _ => rfl⟩⟩⟩⟩

/-- **Every call takes effect once**, at the write of the field it sets. Reference: the mutexes of
`LinuxContainer`, `src/unnamed/part_000:43` to `:84`. -/
theorem Op.proc_linear (op : Op Bw Dk) : (op.proc h).Linear op false := by
  cases op
  case netIn hp cp =>
    dsimp only [Op.proc]
    split
    · exact ⟨(keepsC_ask _).settles, fun p => ⟨(keepsC_effect _).settles,
        fun _ => netInProc_linear h hp cp p⟩⟩
    · exact netInProc_linear h hp cp hp
  case limitMemory l =>
    exact ⟨settles_startOomNotifier h, fun _ => ⟨(keepsC_callIgnoring _).settles,
      fun _ => ⟨(keepsC_callIgnoring _).settles, fun _ => ⟨(keepsC_call _).settles,
      fun _ => ⟨rfl, settles_modifyC fun _ => rfl, fun _ => rfl⟩⟩⟩⟩⟩
  case limitBandwidth l =>
    exact ⟨(keepsC_call _).settles, fun _ => ⟨rfl, settles_modifyC fun _ => rfl, fun _ => rfl⟩⟩
  case limitCPU l =>
    exact ⟨(keepsC_call _).settles, fun _ => ⟨rfl, settles_modifyC fun _ => rfl, fun _ => rfl⟩⟩
  case limitDisk l =>
    exact ⟨(keepsC_call _).settles, fun _ => ⟨rfl, settles_modifyC fun _ => rfl, fun _ => rfl⟩⟩
  case netOut network port =>
    exact ⟨keepsC_getC.settles, fun _ => ⟨(keepsC_read _).settles, fun _ =>
      ⟨(keepsC_readE _).settles, fun _ => ⟨(keepsC_call _).settles,
      fun _ => ⟨rfl, settles_modifyC fun _ => rfl, fun _ => rfl⟩⟩⟩⟩⟩
  case start =>
    exact ⟨keepsC_getC.settles, fun _ => ⟨(keepsC_read _).settles, fun _ =>
      ⟨(keepsC_call _).settles, fun _ => ⟨(keepsC_readE _).settles, fun _ =>
      ⟨(keepsC_call _).settles, fun _ => ⟨rfl, settles_modifyC fun _ => rfl, fun _ => rfl⟩⟩⟩⟩⟩⟩
  case stop kill =>
    exact ⟨keepsC_getC.settles, fun _ => ⟨(keepsC_call _).settles, fun _ =>
      ⟨(keepsC_stopOomNotifier h).settles, fun _ =>
      ⟨rfl, settles_modifyC fun _ => rfl, fun _ => rfl⟩⟩⟩⟩
  case registerEvent e => exact ⟨rfl, settles_modifyC fun _ => rfl, fun _ => rfl⟩
  case setProperty k v => exact ⟨rfl, settles_apply (.setProperty k v) default default, fun _ => rfl⟩
  case removeProperty k => exact ⟨rfl, settles_removeProperty k, fun _ => rfl⟩

end Linear

/-! ## A container serving concurrent calls -/

/-- A call in progress: the operation asked for, what remains of it, and whether it has taken
effect (a ghost: the code keeps no such flag). -/
structure Request (σ Bw Dk : Type) : Type 1 where
  op : Op Bw Dk
  rest : Proc σ Bw Dk
  applied : Bool

/-- A container with the calls in progress on it, numbered as they arrived. The ghost `hist`
lists the calls that took effect, in the order they did. -/
structure Server (σ Bw Dk : Type) : Type 1 where
  w : World σ Bw Dk
  requests : Nat → Option (Request σ Bw Dk)
  next : Nat
  hist : List (Nat × Op Bw Dk)

section Server

variable {σ Bw Dk : Type} (h : Host σ Bw Dk)

/-- A container with no call in progress. -/
def Server.init (w : World σ Bw Dk) : Server σ Bw Dk := ⟨w, fun _ => none, 0, []⟩

/-- One step of the server, in any order: a call arrives, a call in progress takes its next
step, or the host changes (other containers share the pool and the managers). A call whose step
fails returns the error and leaves; one that has run all its steps has returned. -/
inductive Server.Step : Server σ Bw Dk → Server σ Bw Dk → Prop
  | call (s : Server σ Bw Dk) (op : Op Bw Dk) :
      Step s { s with
        requests := Function.update s.requests s.next (some ⟨op, op.proc h, false⟩)
        next := s.next + 1 }
  | ok {s : Server σ Bw Dk} {i : Nat} {op : Op Bw Dk} {α : Type} {lp : Bool}
      {act : M σ Bw Dk α} {k : α → Proc σ Bw Dk} {b : Bool} {a : α} {w' : World σ Bw Dk}
      (hi : s.requests i = some ⟨op, .step lp act k, b⟩) (hact : act s.w = .ok a w') :
      Step s ⟨w', Function.update s.requests i (some ⟨op, k a, b || lp⟩), s.next,
        if lp then s.hist ++ [(i, op)] else s.hist⟩
  | error {s : Server σ Bw Dk} {i : Nat} {op : Op Bw Dk} {α : Type} {lp : Bool}
      {act : M σ Bw Dk α} {k : α → Proc σ Bw Dk} {b : Bool} {e : GoError} {w' : World σ Bw Dk}
      (hi : s.requests i = some ⟨op, .step lp act k, b⟩) (hact : act s.w = .error e w') :
      Step s ⟨w', Function.update s.requests i none, s.next, s.hist⟩
  | host (s : Server σ Bw Dk) (st : σ) : Step s { s with w := ⟨s.w.c, st⟩ }

/-- The servers reached from a container with no call in progress. -/
inductive Server.Reach (w₀ : World σ Bw Dk) : Server σ Bw Dk → Prop
  | init : Reach w₀ (Server.init w₀)
  | step {s s' : Server σ Bw Dk} : Reach w₀ s → Server.Step h s s' → Reach w₀ s'

/-- What the scheduler does next. -/
inductive Event (σ Bw Dk : Type)
  | call (op : Op Bw Dk)
  | run (i : Nat)
  | host (st : σ)

/-- The scheduler as a function: the server after an event. A call that is absent or has
returned does not run. -/
def Server.perform (s : Server σ Bw Dk) : Event σ Bw Dk → Server σ Bw Dk
  | .call op => { s with
      requests := Function.update s.requests s.next (some ⟨op, op.proc h, false⟩)
      next := s.next + 1 }
  | .run i =>
    match s.requests i with
    | some ⟨op, .step lp act k, b⟩ =>
      match act s.w with
      | .ok a w' => ⟨w', Function.update s.requests i (some ⟨op, k a, b || lp⟩), s.next,
          if lp then s.hist ++ [(i, op)] else s.hist⟩
      | .error _ w' => ⟨w', Function.update s.requests i none, s.next, s.hist⟩
    | _ => s
  | .host st => { s with w := ⟨s.w.c, st⟩ }

variable {h} {w₀ : World σ Bw Dk} {s : Server σ Bw Dk}

/-- Whatever the scheduler does, the server stays reachable. -/
theorem Server.Reach.perform (hr : Server.Reach h w₀ s) (ev : Event σ Bw Dk) :
    Server.Reach h w₀ (s.perform h ev) := by
  cases ev with
  | call op => exact hr.step (.call s op)
  | host st => exact hr.step (.host s st)
  | run i =>
    dsimp only [Server.perform]
    split
    · rename_i op α lp act k b hi
      split
      · exact hr.step (.ok hi ‹_›)
      · exact hr.step (.error hi ‹_›)
    · exact hr

/-- The scheduler reaches a server by any list of events from one it reached. -/
theorem Server.Reach.performAll (hr : Server.Reach h w₀ s) (evs : List (Event σ Bw Dk)) :
    Server.Reach h w₀ (evs.foldl (Server.perform h) s) := by
  induction evs generalizing s with
  | nil => exact hr
  | cons ev evs ih => exact ih (hr.perform ev)

end Server

/-! ## The view is linearizable -/

section Linearizable

variable {σ Bw Dk : Type} {h : Host σ Bw Dk} {w₀ : World σ Bw Dk}

/-- What holds of the call numbered `i` in progress, against the history and the next number:
its number was handed out, the rest of it takes effect once, and it is in the history exactly
when it has taken effect. -/
structure Request.Inv (hist : List (Nat × Op Bw Dk)) (next i : Nat) (r : Request σ Bw Dk) :
    Prop where
  lt : i < next
  linear : r.rest.Linear r.op r.applied
  applied : r.applied = true → (i, r.op) ∈ hist
  fresh : r.applied = false → i ∉ hist.map Prod.fst

/-- Another call taking effect leaves a call's facts as they were. -/
theorem Request.Inv.append {hist : List (Nat × Op Bw Dk)} {next i j : Nat} {r : Request σ Bw Dk}
    (ri : r.Inv hist next i) (hij : i ≠ j) (op : Op Bw Dk) : r.Inv (hist ++ [(j, op)]) next i :=
  ⟨ri.lt, ri.linear, fun ha => List.mem_append_left _ (ri.applied ha), fun hf hm => by
    simp only [List.map_append, List.map_cons, List.map_nil, List.mem_append,
      List.mem_singleton] at hm
    exact hm.elim (ri.fresh hf) hij⟩

/-- What every server reached from `w₀` satisfies: its view is the history's, the history names
each call at most once and only calls that arrived, and every call in progress keeps
`Request.Inv`. -/
structure Server.Inv (w₀ : World σ Bw Dk) (s : Server σ Bw Dk) : Prop where
  view : s.w.c.view = (s.hist.map Prod.snd).foldl (fun v op => op.viewStep v) w₀.c.view
  nodup : (s.hist.map Prod.fst).Nodup
  hist_lt : ∀ i ∈ s.hist.map Prod.fst, i < s.next
  requests : ∀ i r, s.requests i = some r → r.Inv s.hist s.next i

/-- A fact holds of every call in progress once one call's entry is replaced, when it holds of
the new entry and of the entries of the others. -/
theorem forall_update_eq_some {β : Type _} {f : Nat → Option β} {i : Nat} {x : Option β}
    {P : Nat → β → Prop} (hi : ∀ r, x = some r → P i r)
    (ho : ∀ j r, j ≠ i → f j = some r → P j r) :
    ∀ j r, Function.update f i x j = some r → P j r := by
  intro j r hj
  rw [Function.update_apply] at hj
  split_ifs at hj with hji
  · subst hji
    exact hi r hj
  · exact ho j r hji hj

/-- **Every step keeps the invariant.** A call's step that does not take effect leaves the view;
the one that does applies the call's step of the view machine and puts the call in the history,
where it was not. Reference: the mutexes of `LinuxContainer`, `src/unnamed/part_000:43` to `:84`. -/
theorem Server.Inv.step {s s' : Server σ Bw Dk} (hinv : Server.Inv w₀ s)
    (hs : Server.Step h s s') : Server.Inv w₀ s' := by
  cases hs with
  | call op =>
    refine ⟨hinv.view, hinv.nodup, fun i hm => Nat.lt_succ_of_lt (hinv.hist_lt i hm),
      forall_update_eq_some (fun r hr => ?_) fun j r _ hj => ?_⟩
    · cases hr
      exact ⟨Nat.lt_succ_self _, Op.proc_linear h op, fun ha => absurd ha Bool.false_ne_true,
        fun _ hm => lt_irrefl _ (hinv.hist_lt _ hm)⟩
    · have ri := hinv.requests j r hj
      exact ⟨Nat.lt_succ_of_lt ri.lt, ri.linear, ri.applied, ri.fresh⟩
  | @ok i op α lp act k b a w' hi hact =>
    have ri := hinv.requests i _ hi
    cases lp with
    | false =>
      obtain ⟨hset, hk⟩ := ri.linear
      refine ⟨(hset.1 _ _ _ hact).trans hinv.view, hinv.nodup, hinv.hist_lt,
        forall_update_eq_some (fun r hr => ?_) fun j r _ hj => hinv.requests j r hj⟩
      cases hr
      exact ⟨ri.lt, by rw [Bool.or_false]; exact hk a, by rw [Bool.or_false]; exact ri.applied,
        by rw [Bool.or_false]; exact ri.fresh⟩
    | true =>
      obtain ⟨hb, hset, hk⟩ := ri.linear
      subst hb
      have hfresh : i ∉ s.hist.map Prod.fst := ri.fresh rfl
      refine ⟨?_, ?_, ?_, forall_update_eq_some (fun r hr => ?_)
        fun j r hji hj => (hinv.requests j r hj).append hji op⟩
      · show w'.c.view = ((s.hist ++ [(i, op)]).map Prod.snd).foldl _ _
        rw [List.map_append, List.foldl_append, ← hinv.view]
        exact hset.1 _ _ _ hact
      · show ((s.hist ++ [(i, op)]).map Prod.fst).Nodup
        rw [List.map_append, List.map_singleton]
        refine List.pairwise_append.2 ⟨hinv.nodup, List.pairwise_singleton _ _, fun x hx y hy => ?_⟩
        rw [List.mem_singleton.1 hy]
        rintro rfl
        exact hfresh hx
      · show ∀ j ∈ (s.hist ++ [(i, op)]).map Prod.fst, j < s.next
        simp only [List.map_append, List.mem_append, List.map_cons, List.map_nil,
          List.mem_singleton]
        rintro j (hj | rfl)
        · exact hinv.hist_lt j hj
        · exact ri.lt
      · cases hr
        exact ⟨ri.lt, hk a, fun _ => List.mem_append_right _ (List.mem_singleton_self _),
          fun hf => by cases hf⟩
  | @error i op α lp act k b e w' hi hact =>
    have ri := hinv.requests i _ hi
    have hview : w'.c.view = s.w.c.view := by
      cases lp with
      | false => exact ri.linear.1.2 _ _ _ hact
      | true => exact ri.linear.2.1.2 _ _ _ hact
    exact ⟨hview.trans hinv.view, hinv.nodup, hinv.hist_lt,
      forall_update_eq_some (fun r hr => by cases hr) fun j r _ hj => hinv.requests j r hj⟩
  | host st => exact ⟨hinv.view, hinv.nodup, hinv.hist_lt, hinv.requests⟩

/-- **Every reached server keeps `Server.Inv`**, by induction on the steps from the start.
Reference: the mutexes of `LinuxContainer`, `src/unnamed/part_000:43` to `:84`. -/
theorem Server.Reach.inv {s : Server σ Bw Dk} (hr : Server.Reach h w₀ s) : Server.Inv w₀ s := by
  induction hr with
  | init => exact ⟨rfl, List.nodup_nil, fun _ hm => absurd hm (List.not_mem_nil _),
      fun _ _ hi => absurd hi (by simp [Server.init])⟩
  | step _ hs ih => exact ih.step hs

/-- **The view is linearizable.** At every point of every interleaving of calls, the host
changing as it may, the view is the view machine run from the first container's over the calls
that took effect, in the order they did. Reference: the mutexes of `LinuxContainer`,
`src/unnamed/part_000:43` to `:84`. -/
theorem Server.view_hist {s : Server σ Bw Dk} (hr : Server.Reach h w₀ s) :
    s.w.c.view = (s.hist.map Prod.snd).foldl (fun v op => op.viewStep v) w₀.c.view :=
  hr.inv.view

/-- The quiet host, except that the runner keeps the commands it runs. -/
def Host.logRuns : Host (List Command) Nat Nat where
  run cmd s := (s ++ [cmd], none)
  start _ s := (s, none)
  kill _ s := s
  subsystemPath _ _ := []
  cgroupsSet _ _ _ s := (s, none)
  cgroupsGet _ _ _ := .ok []
  bandwidthSetLimits _ s := (s, none)
  quotaSetLimits _ s := (s, none)
  acquirePort s := (s, .ok 61001)
  addPort _ s := s
  readFile _ _ := .ok (GoString.ofString "1\n")
  erect _ s := (s, none)
  restoreProcess _ s := s
  activeProcesses _ := []
  resources _ := ⟨0, 0, []⟩
  networkJSON _ := .ok []
  encode _ s := (s, none)
  getenv _ _ := []

/-- A fresh container on the logging host, nothing run yet. -/
def loggedWorld : World (List Command) Nat Nat := ⟨newLinuxContainer [] [] [] [] 0 [], []⟩

/-- `Start` and `Stop` called together: `Start` runs `start.sh`, reads the daemon's PID and
erects the fence; `Stop` then runs all its steps; last, `Start` sets the state. -/
def startStopCrossed : List (Event (List Command) Nat Nat) :=
  [.call .start, .call (.stop false), .run 0, .run 0, .run 0, .run 0, .run 0,
    .run 1, .run 1, .run 1, .run 1, .run 0]

/-- The view is the history's when the calls cross, and the host is not in it: `stop.sh` ran
last, yet the container is `active`, `Stop` having taken effect before `Start`. -/
theorem start_stop_crossed :
    let s := startStopCrossed.foldl (Server.perform Host.logRuns) (Server.init loggedWorld)
    s.w.c.view = (s.hist.map Prod.snd).foldl (fun v op => op.viewStep v) loggedWorld.c.view ∧
      s.hist.map Prod.snd = [.stop false, .start] ∧ s.w.c.state = stateActive ∧
      s.w.host.map Command.path =
        [[[], GoString.ofString "start.sh"], [[], GoString.ofString "stop.sh"]] :=
  ⟨Server.view_hist (Server.Reach.init.performAll _), by with_unfolding_all rfl,
    by with_unfolding_all rfl, by with_unfolding_all rfl⟩

/-- **A call that returned took effect exactly once.** The history names each call at most
once, and every call that has run all its steps is in it. Reference: the mutexes of
`LinuxContainer`, `src/unnamed/part_000:43` to `:84`. -/
theorem Server.returned_applied_once {s : Server σ Bw Dk} (hr : Server.Reach h w₀ s) :
    (s.hist.map Prod.fst).Nodup ∧
      ∀ i r, s.requests i = some r → r.rest = .done → (i, r.op) ∈ s.hist := by
  refine ⟨hr.inv.nodup, fun i r hi hd => ?_⟩
  have ri := hr.inv.requests i r hi
  have hl := ri.linear
  rw [hd] at hl
  exact ri.applied hl

/-- Two `NetOut` calls whose steps alternate, the second taking effect first. -/
def netOutsAlternating : List (Event Unit Nat Nat) :=
  [.call (.netOut [] 80), .call (.netOut [] 443), .run 0, .run 1, .run 0, .run 1, .run 0, .run 1,
    .run 0, .run 1, .run 1, .run 0]

/-- Two `NetOut`s interleaved on `Host.quiet`: each returned is applied once, the second first,
and the container records the rules in the order they took effect. -/
theorem netOuts_alternating :
    let s := netOutsAlternating.foldl (Server.perform Host.quiet)
      (Server.init ⟨newLinuxContainer [] [] [] [] 0 [], ()⟩)
    ((s.hist.map Prod.fst).Nodup ∧
        ∀ i r, s.requests i = some r → r.rest = .done → (i, r.op) ∈ s.hist) ∧
      s.hist.map Prod.fst = [1, 0] ∧ s.w.c.netOuts = [⟨[], 443⟩, ⟨[], 80⟩] :=
  ⟨Server.returned_applied_once (Server.Reach.init.performAll _), rfl, rfl⟩

end Linearizable

/-! ## What a step does to the container -/

section Frames

variable {σ Bw Dk α : Type} (h : Host σ Bw Dk)

/-- The field a call writes at the step it takes effect: `Op.apply`, except that `LimitMemory`
writes the limit alone, its notifier recorded at an earlier step. -/
def Op.write (c : LinuxContainer Bw Dk) (ports : UInt32 × UInt32) : Op Bw Dk → LinuxContainer Bw Dk
  | .limitMemory l => { c with currentMemoryLimits := some l }
  | op => op.apply c default ports

/-- What one step of a call to `op` can do to the container: keep it, record a notifier, or write
the call's field with ports the host allows. -/
def Op.Moves (op : Op Bw Dk) (c c' : LinuxContainer Bw Dk) : Prop :=
  c' = c ∨ (∃ o, c' = { c with oomNotifier := some o }) ∨
    ∃ ports, op.Guard h ports ∧ c' = op.write c ports

variable {h}

/-- Every step of the rest of a call relates the container before it to the one after it by `R`,
following the values its steps return. -/
def Proc.Frames (R : LinuxContainer Bw Dk → LinuxContainer Bw Dk → Prop) : Proc σ Bw Dk → Prop
  | .done => True
  | .step _ act k => (∀ w e w', act w = .error e w' → R w.c w'.c) ∧
      ∀ w a w', act w = .ok a w' → R w.c w'.c ∧ (k a).Frames R

/-- A weaker relation frames what a stronger one does. -/
theorem Proc.Frames.mono {R R' : LinuxContainer Bw Dk → LinuxContainer Bw Dk → Prop}
    (hR : ∀ c c', R c c' → R' c c') : ∀ {p : Proc σ Bw Dk}, p.Frames R → p.Frames R'
  | .done, _ => trivial
  | .step _ _ _, ⟨herr, hok⟩ => ⟨fun w e w' he => hR _ _ (herr w e w' he),
      fun w a w' he => ⟨hR _ _ (hok w a w' he).1, Proc.Frames.mono hR (hok w a w' he).2⟩⟩

/-- A step that keeps the container. -/
theorem KeepsC.frames {R : LinuxContainer Bw Dk → LinuxContainer Bw Dk → Prop}
    {act : M σ Bw Dk α} {k : α → Proc σ Bw Dk} {lp : Bool} (hc : KeepsC act)
    (hR : ∀ c, R c c) (hk : ∀ a, (k a).Frames R) : (Proc.step lp act k).Frames R :=
  ⟨fun w e w' he => by rw [hc.2 w e w' he]; exact hR _,
    fun w a w' he => ⟨by rw [hc.1 w a w' he]; exact hR _, hk a⟩⟩

/-- A call's last step: the write of its field. -/
theorem frames_write {op : Op Bw Dk} {f : LinuxContainer Bw Dk → LinuxContainer Bw Dk}
    (ports : UInt32 × UInt32) (hg : op.Guard h ports) (hf : ∀ c, f c = op.write c ports) :
    (Proc.step true (modifyC f) fun _ => .done : Proc σ Bw Dk).Frames (op.Moves h) :=
  ⟨fun _ _ _ he => (by cases he),
    fun w _ _ he => by cases he; exact ⟨.inr (.inr ⟨ports, hg, hf w.c⟩), trivial⟩⟩

/-- Each step of `NetIn` once its port is known keeps the container, or appends the mapping the
host allows. -/
theorem netInProc_frames {hp cp p : UInt32}
    (hg : (Op.netIn hp cp).Guard h (p, if cp = 0 then p else cp)) :
    (netInProc h p cp).Frames ((Op.netIn hp cp).Moves h) :=
  keepsC_getC.frames (fun _ => .inl rfl) fun _ => (keepsC_read _).frames (fun _ => .inl rfl)
    fun _ => (keepsC_call _).frames (fun _ => .inl rfl) fun _ => frames_write _ hg fun _ => rfl

/-- **What a step of a call can do**: every step of every call keeps the container, records a
notifier, or writes the call's field with ports the host allows (`NetIn`'s port is the one given,
or one the pool handed out) and a rule `netOutEnv` accepts. Reference: `src/unnamed/part_000:768`
and `:804`. -/
theorem Op.proc_frames (op : Op Bw Dk) : (op.proc h).Frames (op.Moves h) := by
  have refl : ∀ c, op.Moves h c c := fun _ => .inl rfl
  cases op
  case netIn hp cp =>
    dsimp only [Op.proc]
    split
    · refine ⟨fun w e w' he => by rw [(keepsC_ask _).2 w e w' he]; exact refl _,
        fun w p w' he => ⟨by rw [(keepsC_ask _).1 w p w' he]; exact refl _, ?_⟩⟩
      obtain ⟨hq, -⟩ := ask_ok.1 he
      exact (keepsC_effect _).frames refl fun _ => netInProc_frames ⟨.inr ⟨‹_›, _, hq⟩, rfl⟩
    · exact netInProc_frames ⟨.inl ⟨‹_›, rfl⟩, rfl⟩
  case netOut network port =>
    refine keepsC_getC.frames refl fun _ => (keepsC_read _).frames refl fun path => ?_
    refine ⟨fun w e w' he => by rw [(keepsC_readE _).2 w e w' he]; exact refl _,
      fun w env w' he => ⟨by rw [(keepsC_readE _).1 w env w' he]; exact refl _, ?_⟩⟩
    obtain ⟨henv, -⟩ := readE_ok.1 he
    exact (keepsC_call _).frames refl fun _ => frames_write default (netOutEnv_ok henv)
      fun _ => rfl
  case limitMemory l =>
    refine ⟨fun w e w' he => .inr (.inl (startOomNotifier_error he)),
      fun w a w' he => ⟨.inr (.inl (startOomNotifier_ok he)), ?_⟩⟩
    exact (keepsC_callIgnoring _).frames refl fun _ => (keepsC_callIgnoring _).frames refl
      fun _ => (keepsC_call _).frames refl fun _ => frames_write default trivial
      fun _ => rfl
  case removeProperty k =>
    refine ⟨fun w e w' he => by rw [removeProperty_error he]; exact refl _,
      fun w a w' he => ⟨.inr (.inr ⟨default, trivial, removeProperty_ok he⟩), trivial⟩⟩
  case start =>
    exact keepsC_getC.frames refl fun _ => (keepsC_read _).frames refl fun _ =>
      (keepsC_call _).frames refl fun _ => (keepsC_readE _).frames refl fun _ =>
      (keepsC_call _).frames refl fun _ => frames_write default trivial fun _ => rfl
  case stop kill =>
    exact keepsC_getC.frames refl fun _ => (keepsC_call _).frames refl fun _ =>
      (keepsC_stopOomNotifier h).frames refl fun _ =>
      frames_write default trivial fun _ => rfl
  case limitBandwidth l =>
    exact (keepsC_call _).frames refl fun _ => frames_write default trivial fun _ => rfl
  case limitCPU l =>
    exact (keepsC_call _).frames refl fun _ => frames_write default trivial fun _ => rfl
  case limitDisk l =>
    exact (keepsC_call _).frames refl fun _ => frames_write default trivial fun _ => rfl
  all_goals exact frames_write default trivial fun _ => rfl

section Moves

variable {op : Op Bw Dk} {c c' : LinuxContainer Bw Dk}

/-- A step of a call keeps `Replayable` when the pool never hands out port 0. -/
theorem Op.Moves.replayable (hp : h.AcquiresNonzero) (hm : op.Moves h c c') (hr : Replayable c) :
    Replayable c' := by
  rcases hm with rfl | ⟨o, rfl⟩ | ⟨ports, hg, rfl⟩
  · exact hr
  · exact hr.of_eq rfl rfl
  · cases op
    case limitMemory l => exact hr.of_eq rfl rfl
    all_goals exact (hr.apply hp hg : Replayable (Op.apply _ default _ _))

/-- No step of a call drops a recorded notifier. -/
theorem Op.Moves.oomNotifier_isSome (hm : op.Moves h c c') (hn : c.oomNotifier.isSome) :
    c'.oomNotifier.isSome := by
  rcases hm with rfl | ⟨o, rfl⟩ | ⟨ports, -, rfl⟩
  · exact hn
  · rfl
  · cases op <;> exact hn

/-- Only `LimitMemory` writes a memory limit. -/
theorem Op.Moves.keeps_memoryWatched (hl : ∀ l, op ≠ .limitMemory l) (hm : op.Moves h c c')
    (hw : MemoryWatched c) : MemoryWatched c' := by
  rcases hm with rfl | ⟨o, rfl⟩ | ⟨ports, -, rfl⟩
  · exact hw
  · exact fun _ => rfl
  · cases op
    case limitMemory l => exact absurd rfl (hl l)
    all_goals exact hw.of_eq rfl rfl

end Moves

end Frames

/-! ## Invariants over interleavings -/

section Guards

variable {σ Bw Dk α : Type} {h : Host σ Bw Dk} {w₀ : World σ Bw Dk} {s : Server σ Bw Dk}

/-- Every step of the rest of a call keeps `I`, counting on `G`, a fact no step undoes, once the
call has seen it hold (`known`). -/
def Proc.Guards (I G : LinuxContainer Bw Dk → Prop) : Bool → Proc σ Bw Dk → Prop
  | _, .done => True
  | known, .step _ act k =>
      (∀ w e w', act w = .error e w' → I w.c → (known = true → G w.c) → I w'.c) ∧
      ∀ w a w', act w = .ok a w' → I w.c → (known = true → G w.c) →
        I w'.c ∧ ∃ known', (known' = true → G w'.c) ∧ (k a).Guards I G known'

/-- A call whose steps keep `I` outright counts on nothing. -/
theorem Proc.Frames.guards {I G : LinuxContainer Bw Dk → Prop} :
    ∀ {p : Proc σ Bw Dk}, p.Frames (fun c c' => I c → I c') → ∀ b, p.Guards I G b
  | .done, _, _ => trivial
  | .step _ _ _, ⟨herr, hok⟩, _ => ⟨fun w e w' he hI _ => herr w e w' he hI,
      fun w a w' he hI _ => ⟨(hok w a w' he).1 hI, false, fun hb => absurd hb Bool.false_ne_true,
        Proc.Frames.guards (hok w a w' he).2 false⟩⟩

/-- A step that keeps the container keeps every invariant. -/
theorem KeepsC.guards {I G : LinuxContainer Bw Dk → Prop} {act : M σ Bw Dk α}
    {k : α → Proc σ Bw Dk} {lp known : Bool} (hc : KeepsC act)
    (hk : ∀ a, (k a).Guards I G known) : (Proc.step lp act k).Guards I G known :=
  ⟨fun w e w' he hI _ => by rw [hc.2 w e w' he]; exact hI,
    fun w a w' he hI hG => ⟨by rw [hc.1 w a w' he]; exact hI, known,
      fun hb => by rw [hc.1 w a w' he]; exact hG hb, hk a⟩⟩

/-- **Guarded invariants carry over to interleavings.** Let no step of any call undo `G`, and
let every step of every call keep `I`, counting on `G` once the call has seen it. Then every
server reached from a container satisfying `I` has a container satisfying `I`, and every call
in progress is one that may go on: it has not counted on `G`, or `G` holds. Reference: the mutexes
of `LinuxContainer`, `src/unnamed/part_000:43` to `:84`. -/
theorem Server.guarded {I G : LinuxContainer Bw Dk → Prop}
    (hG : ∀ op : Op Bw Dk, (op.proc h).Frames fun c c' => G c → G c')
    (hI : ∀ op : Op Bw Dk, (op.proc h).Guards I G false) (h0 : I w₀.c)
    (hr : Server.Reach h w₀ s) :
    I s.w.c ∧ ∀ i r, s.requests i = some r → r.rest.Frames (fun c c' => G c → G c') ∧
      ∃ known, (known = true → G s.w.c) ∧ r.rest.Guards I G known := by
  induction hr with
  | init => exact ⟨h0, fun _ _ hi => absurd hi (by simp [Server.init])⟩
  | step _ hs ih =>
    obtain ⟨hc, hreq⟩ := ih
    cases hs with
    | call op =>
      refine ⟨hc, forall_update_eq_some (fun r hr => ?_) fun j r _ hj => hreq j r hj⟩
      cases hr
      exact ⟨hG op, false, fun hb => absurd hb Bool.false_ne_true, hI op⟩
    | ok hi hact =>
      obtain ⟨⟨-, hGok⟩, known, hkn, -, hIok⟩ := hreq _ _ hi
      obtain ⟨hGc, hkG⟩ := hGok _ _ _ hact
      obtain ⟨hc', known', hkn', hkI⟩ := hIok _ _ _ hact hc hkn
      refine ⟨hc', forall_update_eq_some (fun r hr => ?_) fun j r _ hj => ?_⟩
      · cases hr
        exact ⟨hkG, known', hkn', hkI⟩
      · obtain ⟨hf, kj, hkj, hg⟩ := hreq j r hj
        exact ⟨hf, kj, fun hb => hGc (hkj hb), hg⟩
    | error hi hact =>
      obtain ⟨⟨hGerr, -⟩, known, hkn, hIerr, -⟩ := hreq _ _ hi
      refine ⟨hIerr _ _ _ hact hc hkn,
        forall_update_eq_some (fun r hr => by cases hr) fun j r _ hj => ?_⟩
      obtain ⟨hf, kj, hkj, hg⟩ := hreq j r hj
      exact ⟨hf, kj, fun hb => hGerr _ _ _ hact (hkj hb), hg⟩
    | host st => exact ⟨hc, hreq⟩

/-- **Invariants carry over to interleavings.** When every step of every call keeps `I`, every
server reached from a container satisfying `I` has a container satisfying `I`. Reference: the
mutexes of `LinuxContainer`, `src/unnamed/part_000:43` to `:84`. -/
theorem Server.invariant {I : LinuxContainer Bw Dk → Prop}
    (hI : ∀ op : Op Bw Dk, (op.proc h).Frames fun c c' => I c → I c') (h0 : I w₀.c)
    (hr : Server.Reach h w₀ s) : I s.w.c :=
  (Server.guarded (G := fun _ => True) (fun op => (hI op).mono fun _ _ _ _ => trivial)
    (fun op => (hI op).guards false) h0 hr).1

/-- **Every container a server reaches is replayable**, whatever the interleaving of the calls,
when the pool never hands out port 0. Reference: `src/unnamed/part_000:768` and `:804`. -/
theorem Server.reach_replayable (hp : h.AcquiresNonzero) (h0 : Replayable w₀.c)
    (hr : Server.Reach h w₀ s) : Replayable s.w.c :=
  Server.invariant (fun op => (Op.proc_frames op).mono fun _ _ hm => hm.replayable hp) h0 hr

/-- Two `NetIn` calls for port 0 whose steps alternate, on the quiet host, whose pool hands out
61001 each time. -/
theorem netIns_alternating_replayable :
    let s := ([.call (.netIn 0 0), .call (.netIn 0 8080), .run 0, .run 1, .run 0, .run 1, .run 0,
      .run 1, .run 0, .run 1, .run 0, .run 1, .run 0, .run 1] : List (Event Unit Nat Nat)).foldl
        (Server.perform Host.quiet) (Server.init ⟨newLinuxContainer [] [] [] [] 0 [], ()⟩)
    Replayable s.w.c ∧ s.w.c.netIns = [⟨61001, 61001⟩, ⟨61001, 8080⟩] :=
  ⟨Server.reach_replayable (fun _ _ hq => by cases hq; decide) (Replayable.new [] [] [] [] 0 [])
    (Server.Reach.init.performAll _), rfl⟩

/-- `LimitMemory` records the notifier at its first step and writes the limit at its last, so
its last step may count on the notifier; every other call keeps a watched container watched. -/
theorem Op.proc_guards_memoryWatched (op : Op Bw Dk) :
    (op.proc h).Guards MemoryWatched (fun c => c.oomNotifier.isSome) false := by
  cases op
  case limitMemory l =>
    refine ⟨fun w e w' he _ _ => ?_, fun w a w' he _ _ => ?_⟩
    · obtain ⟨o, ho⟩ := startOomNotifier_error he
      exact fun _ => by rw [ho]; rfl
    · obtain ⟨o, ho⟩ := startOomNotifier_ok he
      refine ⟨fun _ => by rw [ho]; rfl, true, fun _ => by rw [ho]; rfl, ?_⟩
      exact (keepsC_callIgnoring _).guards fun _ => (keepsC_callIgnoring _).guards fun _ =>
        (keepsC_call _).guards fun _ => ⟨fun _ _ _ he => (by cases he),
          fun _ _ _ he _ hn => by cases he; exact ⟨fun _ => hn rfl, true, fun _ => hn rfl, trivial⟩⟩
  all_goals exact Proc.Frames.guards ((Op.proc_frames _).mono fun _ _ hm hw =>
    hm.keeps_memoryWatched (fun _ hl => by cases hl) hw) false

/-- **A container a server reaches with a memory limit has an oom notifier**, whatever the
interleaving of the calls: `LimitMemory` writes the limit after it has recorded the notifier,
and no step of any call drops a notifier. Reference: `src/unnamed/part_000:654` and `:856`. -/
theorem Server.reach_memoryWatched (h0 : MemoryWatched w₀.c) (hr : Server.Reach h w₀ s) :
    MemoryWatched s.w.c :=
  (Server.guarded (fun op => (Op.proc_frames op).mono fun _ _ hm => hm.oomNotifier_isSome)
    Op.proc_guards_memoryWatched h0 hr).1

/-- `LimitMemory` and `Stop` called together: `LimitMemory` records and starts the notifier,
`Stop` kills it and stops, and `LimitMemory` then writes the limit. -/
theorem limitMemory_stop_watched :
    let s := ([.call (.limitMemory ⟨100⟩), .call (.stop false), .run 0, .run 1, .run 1, .run 1,
      .run 0, .run 0, .run 0, .run 0, .run 1] : List (Event Unit Nat Nat)).foldl
        (Server.perform Host.quiet) (Server.init ⟨newLinuxContainer [] [] [] [] 0 [], ()⟩)
    MemoryWatched s.w.c ∧ s.w.c.currentMemoryLimits = some ⟨100⟩ ∧ s.w.c.state = stateStopped :=
  ⟨Server.reach_memoryWatched (by exact fun hm => absurd hm Bool.false_ne_true)
    (Server.Reach.init.performAll _),
    rfl, rfl⟩

end Guards

end LinuxBackend

end GardenLinux
