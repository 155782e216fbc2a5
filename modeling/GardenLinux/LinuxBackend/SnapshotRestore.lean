import GardenLinux.LinuxBackend.Transitions

/-!
# Snapshot and restore

`Snapshot` writes what a container holds; after a restart, `Restore` runs on a fresh
`NewLinuxContainer` to bring it back. `Restore` sets the state, the environment and the events
of the snapshot, runs `LimitMemory` again with its memory limit, and runs `NetIn` and `NetOut`
again for each recorded mapping and rule. It does not set the bandwidth, CPU or disk limits
again, and they are the container's own record: the restored container's snapshot has none.

With collaborators that succeed and a pool that never hands out port 0, from every reachable
container (`restore_snapshot`): restoring its snapshot on a fresh container succeeds, and the
snapshot of the result has the same state, events, environment, port mappings, rules and memory
limit, and no bandwidth, CPU or disk limit. A container whose bandwidth was limited is restored
without it (`restore_drops_bandwidth`).

The proof runs `Restore` forward. `Triple P x Q` says that from a world where `P` holds, `x`
succeeds and establishes `Q`; each primitive and each operation `Restore` runs has its triple, and
`restore_triple` chains them. The recorded mappings and rules replay as recorded because the
container was `Replayable`.
-/

namespace GardenLinux

namespace LinuxBackend

/-! ## Triples -/

section Triples

variable {σ Bw Dk α β γ : Type}

/-- `Triple P x Q`: from every world where `P` holds, `x` succeeds, and `Q` holds of its result
and of the world after it. -/
def Triple (P : World σ Bw Dk → Prop) (x : M σ Bw Dk α) (Q : α → World σ Bw Dk → Prop) : Prop :=
  ∀ w, P w → ∃ a w', x w = .ok a w' ∧ Q a w'

namespace Triple

variable {P : World σ Bw Dk → Prop} {x : M σ Bw Dk α} {Q Q' : α → World σ Bw Dk → Prop}

/-- Sequencing: `x` from `P` to `Q`, then `f` from each `Q a` to `R`. -/
theorem bind {f : α → M σ Bw Dk β} {R : β → World σ Bw Dk → Prop} (hx : Triple P x Q)
    (hf : ∀ a, Triple (Q a) (f a) R) : Triple P (x >>= f) R := fun w hw =>
  let ⟨a, w1, h1, hq⟩ := hx w hw
  let ⟨b, w', h2, hr⟩ := hf a w1 hq
  ⟨b, w', by rw [bind_of_ok h1, h2], hr⟩

/-- A weaker postcondition holds after what a stronger one does. -/
theorem mono (hx : Triple P x Q) (hq : ∀ a w, Q a w → Q' a w) : Triple P x Q' := fun w hw =>
  let ⟨a, w', h1, h2⟩ := hx w hw
  ⟨a, w', h1, hq a w' h2⟩

/-- A precondition that is a choice of witness: a triple for each. -/
theorem ex {P : γ → World σ Bw Dk → Prop} (hx : ∀ g, Triple (P g) x Q) :
    Triple (fun w => ∃ g, P g w) x Q := fun w ⟨g, hw⟩ => hx g w hw

/-- `pure a` returns `a` and keeps the world. -/
theorem pure (a : α) : Triple P (Pure.pure a) fun b w => b = a ∧ P w := fun w hw =>
  ⟨a, w, rfl, rfl, hw⟩

/-- Running `f` on each element: an invariant indexed by the elements done so far. -/
theorem forM {xs : List γ} {f : γ → M σ Bw Dk Unit} {I : List γ → World σ Bw Dk → Prop}
    (hf : ∀ x ∈ xs, ∀ ys, Triple (I ys) (f x) fun _ => I (ys ++ [x])) (ys : List γ) :
    Triple (I ys) (xs.forM f) fun _ => I (ys ++ xs) := by
  induction xs generalizing ys with
  | nil => exact fun w hw => ⟨(), w, rfl, by simpa using hw⟩
  | cons x xs ih =>
    rw [List.forM_cons']
    refine (hf x (.head _) ys).bind fun _ => ?_
    simpa using ih (fun y hy => hf y (.tail _ hy)) (ys ++ [x])

/-- Running `f` on each element, when `g` says what one run does to the container. -/
theorem forM_fold {xs : List γ} {f : γ → M σ Bw Dk Unit}
    (g : LinuxContainer Bw Dk → γ → LinuxContainer Bw Dk)
    (hf : ∀ x ∈ xs, ∀ c, Triple (fun w => w.c = c) (f x) fun _ w => w.c = g c x)
    (c : LinuxContainer Bw Dk) :
    Triple (fun w => w.c = c) (xs.forM f) fun _ w => w.c = xs.foldl g c :=
  Triple.forM (I := fun ys w => w.c = ys.foldl g c)
    (fun x hx _ => (hf x hx _).mono fun _ _ hw => hw.trans (List.foldl_append g c _ [x]).symm) []

end Triple

variable {c : LinuxContainer Bw Dk}

/-- Reading the container returns it and keeps it. -/
theorem getC_triple : Triple (fun w => w.c = c) (getC : M σ Bw Dk _) fun a w => a = c ∧ w.c = c :=
  fun w hw => ⟨_, w, rfl, hw, hw⟩

/-- Modifying the container applies the modification. -/
theorem modifyC_triple (f : LinuxContainer Bw Dk → LinuxContainer Bw Dk) :
    Triple (fun w => w.c = c) (modifyC f : M σ Bw Dk Unit) fun _ w => w.c = f c :=
  fun w hw => ⟨_, _, rfl, by rw [← hw]⟩

/-- Reading the host keeps the container. -/
theorem read_triple (f : σ → α) :
    Triple (fun w => w.c = c) (read f : M σ Bw Dk α) fun _ w => w.c = c :=
  fun w hw => ⟨_, w, rfl, hw⟩

/-- A call whose error is ignored keeps the container. -/
theorem effect_triple (f : σ → σ) :
    Triple (fun w => w.c = c) (effect f : M σ Bw Dk Unit) fun _ w => w.c = c :=
  fun _ hw => ⟨_, _, rfl, hw⟩

/-- A call whose answer is ignored keeps the container. -/
theorem callIgnoring_triple (f : σ → σ × Option GoError) :
    Triple (fun w => w.c = c) (callIgnoring f : M σ Bw Dk Unit) fun _ w => w.c = c :=
  fun _ hw => ⟨_, _, rfl, hw⟩

/-- A call that always succeeds keeps the container. -/
theorem call_triple {f : σ → σ × Option GoError} (hf : ∀ s, (f s).2 = none) :
    Triple (fun w => w.c = c) (call f : M σ Bw Dk Unit) fun _ w => w.c = c :=
  fun w hw => ⟨_, _, call_of_ok (hf w.host), hw⟩

/-- A read of the host that always answers keeps the container. -/
theorem readE_triple {f : σ → Except GoError α} (hf : ∀ s, ∃ a, f s = .ok a) :
    Triple (fun w => w.c = c) (readE f : M σ Bw Dk α) fun _ w => w.c = c := fun w hw =>
  let ⟨a, ha⟩ := hf w.host
  ⟨a, w, by simp [readE, ha], hw⟩

end Triples

/-! ## Restore, step by step -/

section Forward

variable {σ Bw Dk : Type}

/-- Collaborators that succeed: the runner runs and starts, the cgroups manager writes, the
fence marshals, the snapshot is written, and the pool never hands out port 0. -/
structure Host.Succeeds (h : Host σ Bw Dk) : Prop where
  run : ∀ cmd s, (h.run cmd s).2 = none
  start : ∀ cmd s, (h.start cmd s).2 = none
  cgroupsSet : ∀ sub name v s, (h.cgroupsSet sub name v s).2 = none
  networkJSON : ∀ s, ∃ j, h.networkJSON s = .ok j
  encode : ∀ snap s, (h.encode snap s).2 = none
  acquiresNonzero : h.AcquiresNonzero

variable {h : Host σ Bw Dk} (hs : h.Succeeds) {c : LinuxContainer Bw Dk}

/-- What `Snapshot` writes: the container's state, events, limits, mappings, rules and
environment as they are. -/
theorem snapshot_ok {w w' : World σ Bw Dk} {s : ContainerSnapshot Bw Dk}
    (hr : snapshot h w = .ok s w') :
    s.state = w.c.state ∧ s.events = w.c.events ∧ s.envVars = w.c.envvars ∧
      s.netIns = w.c.netIns ∧ s.netOuts = w.c.netOuts ∧
      s.limits = ⟨w.c.currentBandwidthLimits, w.c.currentCPULimits, w.c.currentDiskLimits,
        w.c.currentMemoryLimits⟩ := by
  unfold snapshot at hr
  rw [bind_of_ok (getC_apply _), bind_of_ok (read_apply _ _), bind_of_ok (read_apply _ _)] at hr
  obtain ⟨j, w1, h1, hr⟩ := bind_ok.1 hr
  obtain ⟨-, rfl⟩ := readE_ok.1 h1
  obtain ⟨_, w2, h2, hr⟩ := bind_ok.1 hr
  cases hr
  exact ⟨rfl, rfl, rfl, rfl, rfl, rfl⟩

include hs

/-- `Snapshot` succeeds when the fence marshals and the snapshot is written. -/
theorem snapshot_succeeds (w : World σ Bw Dk) : ∃ s w', snapshot h w = .ok s w' := by
  obtain ⟨j, hj⟩ := hs.networkJSON w.host
  unfold snapshot
  rw [bind_of_ok (getC_apply _), bind_of_ok (read_apply _ _), bind_of_ok (read_apply _ _),
    bind_of_ok (show (readE h.networkJSON : M σ Bw Dk _) w = .ok j w by simp [readE, hj]),
    bind_of_ok (call_of_ok (hs.encode _ _))]
  exact ⟨_, _, rfl⟩

/-- `startOomNotifier`, on a host whose runner starts, succeeds and may set the notifier, nothing
else. Reference: `src/unnamed/part_000:856`. -/
theorem startOomNotifier_triple :
    Triple (fun w => w.c = c) (startOomNotifier h) fun _ w =>
      ∃ o, w.c = { c with oomNotifier := o } := by
  unfold startOomNotifier
  refine getC_triple.bind fun a => ?_
  rintro w ⟨rfl, hw⟩
  rcases ho : a.oomNotifier with _ | o
  · exact ((read_triple _).bind fun _ => (modifyC_triple _).bind fun _ =>
      (call_triple (hs.start _)).mono fun _ _ hw => ⟨_, hw⟩) w hw
  · exact ⟨(), w, rfl, some o, by rw [hw, ← ho]⟩

/-- `LimitMemory` succeeds, and sets the notifier and the limit. -/
theorem limitMemory_triple (l : MemoryLimits) :
    Triple (fun w => w.c = c) (limitMemory h l) fun _ w =>
      ∃ o, w.c = { c with oomNotifier := o, currentMemoryLimits := some l } := by
  unfold limitMemory
  refine (startOomNotifier_triple hs).bind fun _ => Triple.ex fun o => ?_
  exact (callIgnoring_triple _).bind fun _ => (callIgnoring_triple _).bind fun _ =>
    (call_triple (hs.cgroupsSet _ _ _)).bind fun _ => (modifyC_triple _).mono fun _ _ hw => ⟨o, hw⟩

/-- The memory step of `Restore`: `LimitMemory` when the snapshot has a limit. -/
theorem forM_limitMemory_triple (m : Option MemoryLimits) :
    Triple (fun w => w.c = c) (m.forM (limitMemory h)) fun _ w =>
      ∃ o, w.c =
        { c with oomNotifier := o, currentMemoryLimits := m.elim c.currentMemoryLimits some } := by
  cases m with
  | none => exact fun w hw => ⟨(), w, rfl, c.oomNotifier, hw⟩
  | some l => exact limitMemory_triple hs l

/-- A recorded mapping runs again as recorded: its host port is not 0, so none is acquired,
and its container port is not 0, so it is kept. -/
theorem netIn_triple {n : NetInSpec} (hn : n.hostPort ≠ 0 ∧ n.containerPort ≠ 0) :
    Triple (fun w => w.c = c) (netIn h n.hostPort n.containerPort) fun _ w =>
      w.c = { c with netIns := c.netIns ++ [n] } := by
  simp only [netIn, acquireHostPort, if_neg hn.1, pure_bind, if_neg hn.2]
  refine getC_triple.bind fun a => ?_
  rintro w ⟨rfl, hw⟩
  exact ((read_triple _).bind fun _ => (call_triple (hs.run _)).bind fun _ =>
    (modifyC_triple _).bind fun _ => (Triple.pure _).mono fun _ _ hw => hw.2) w hw

/-- A recorded rule runs again as recorded. -/
theorem netOut_triple {o : NetOutSpec} (ho : o.port ≠ 0 ∨ o.network ≠ []) :
    Triple (fun w => w.c = c) (netOut h o.network o.port) fun _ w =>
      w.c = { c with netOuts := c.netOuts ++ [o] } := by
  have henv : ∀ path, ∃ env, netOutEnv o.network o.port path = .ok env := fun path => by
    unfold netOutEnv
    split_ifs with h1 h2
    · exact ⟨_, rfl⟩
    · exact absurd h2 (ho.resolve_left (by simpa using h1))
    · exact ⟨_, rfl⟩
  unfold netOut
  refine getC_triple.bind fun a => ?_
  rintro w ⟨rfl, hw⟩
  exact ((read_triple _).bind fun path => (readE_triple fun _ => henv path).bind fun _ =>
    (call_triple (hs.run _)).bind fun _ => modifyC_triple _) w hw

omit hs in
/-- Registering events one by one appends them all. -/
theorem foldl_events (evs : List GoString) (c : LinuxContainer Bw Dk) :
    evs.foldl (fun c e => { c with events := c.events ++ [e] }) c =
      { c with events := c.events ++ evs } := by
  induction evs generalizing c with
  | nil => simp
  | cons e evs ih => rw [List.foldl_cons, ih]; simp

omit hs in
/-- Recording mappings one by one appends them all. -/
theorem foldl_netIns (ns : List NetInSpec) (c : LinuxContainer Bw Dk) :
    ns.foldl (fun c n => { c with netIns := c.netIns ++ [n] }) c =
      { c with netIns := c.netIns ++ ns } := by
  induction ns generalizing c with
  | nil => simp
  | cons n ns ih => rw [List.foldl_cons, ih]; simp

omit hs in
/-- Recording rules one by one appends them all. -/
theorem foldl_netOuts (os : List NetOutSpec) (c : LinuxContainer Bw Dk) :
    os.foldl (fun c o => { c with netOuts := c.netOuts ++ [o] }) c =
      { c with netOuts := c.netOuts ++ os } := by
  induction os generalizing c with
  | nil => simp
  | cons o os ih => rw [List.foldl_cons, ih]; simp

/-- **`Restore` on a fresh container.** With collaborators that succeed, restoring a snapshot
whose mappings and rules can run again, on a container with no events, mappings or rules,
succeeds; it sets the snapshot's state, environment, events, memory limit, mappings and rules,
and the oom notifier, and keeps everything else. Reference: `LinuxContainer.Restore`. -/
theorem restore_triple (s : ContainerSnapshot Bw Dk)
    (hi : ∀ n ∈ s.netIns, n.hostPort ≠ 0 ∧ n.containerPort ≠ 0)
    (ho : ∀ o ∈ s.netOuts, o.port ≠ 0 ∨ o.network ≠ [])
    (hc : c.events = [] ∧ c.netIns = [] ∧ c.netOuts = []) :
    Triple (fun w => w.c = c) (restore h s) fun _ w => ∃ o, w.c = { c with
      state := s.state, envvars := s.envVars, events := s.events, oomNotifier := o,
      currentMemoryLimits := s.limits.memory.elim c.currentMemoryLimits some,
      netIns := s.netIns, netOuts := s.netOuts } := by
  obtain ⟨he, hn, hout⟩ := hc
  unfold restore setState
  refine (modifyC_triple _).bind fun _ => (modifyC_triple _).bind fun _ =>
    (Triple.forM_fold _ (fun _ _ _ => modifyC_triple _) _).bind fun _ =>
    (forM_limitMemory_triple hs _).bind fun _ => Triple.ex fun o => ?_
  refine (Triple.forM (I := fun _ w => w.c = _) (fun _ _ _ => effect_triple _) []).bind fun _ =>
    getC_triple.bind fun a => ?_
  rintro w ⟨rfl, hw⟩
  refine ((call_triple (hs.run _)).bind fun _ =>
    (Triple.forM_fold _ (fun n hn' _ => (netIn_triple hs (hi n hn')).bind fun _ =>
      (Triple.pure _).mono fun _ _ hw => hw.2) _).bind fun _ =>
    (Triple.forM_fold _ (fun o ho' _ => netOut_triple hs (ho o ho')) _).mono fun _ _ hw =>
      ⟨o, ?_⟩) w hw
  rw [hw, foldl_netOuts, foldl_netIns, foldl_events]
  simp [he, hn, hout]

end Forward

/-! ## Snapshot, then restore -/

section Agree

variable {σ Bw Dk : Type}

/-- **Snapshot, then restore.** From any container reached by successful operations, on a host
whose calls succeed, `Restore` of its snapshot into a new container succeeds, and the snapshot of
the restored container has the same state, events, environment, port mappings, rules and memory
limit, and no bandwidth, CPU or disk limit: `Restore` does not set those again. Reference:
`src/unnamed/part_000:197` and `:291`. -/
theorem restore_snapshot (h : Host σ Bw Dk) (hs : h.Succeeds) {w : World σ Bw Dk}
    (hw : Reachable h w) {snap : ContainerSnapshot Bw Dk} {w1 : World σ Bw Dk}
    (hsnap : snapshot h w = .ok snap w1) (id handle path : GoString)
    (properties : List (GoString × GoString)) (graceTime : Nat) (envvars : List GoString) (s0 : σ) :
    ∃ w2, restore h snap ⟨newLinuxContainer id handle path properties graceTime envvars, s0⟩ =
        .ok () w2 ∧
      ∃ snap' w3, snapshot h w2 = .ok snap' w3 ∧
        snap'.state = snap.state ∧ snap'.events = snap.events ∧ snap'.envVars = snap.envVars ∧
        snap'.netIns = snap.netIns ∧ snap'.netOuts = snap.netOuts ∧
        snap'.limits.memory = snap.limits.memory ∧
        snap'.limits.bandwidth = none ∧ snap'.limits.cpu = none ∧ snap'.limits.disk = none := by
  have hrep := hw.replayable hs.acquiresNonzero
  obtain ⟨hst, hev, henv, hin, hout, hlim⟩ := snapshot_ok hsnap
  obtain ⟨_, w2, hr, o, hc⟩ := restore_triple (c := newLinuxContainer id handle path properties
    graceTime envvars) hs snap (hin ▸ hrep.netIns) (hout ▸ hrep.netOuts) ⟨rfl, rfl, rfl⟩ ⟨_, s0⟩ rfl
  obtain ⟨snap', w3, h3⟩ := snapshot_succeeds hs w2
  obtain ⟨hst', hev', henv', hin', hout', hlim'⟩ := snapshot_ok h3
  rw [hc] at hst' hev' henv' hin' hout' hlim'
  refine ⟨w2, hr, snap', w3, h3, hst', hev', henv', hin', hout', ?_, ?_, ?_, ?_⟩ <;> rw [hlim']
  · rw [hlim]; cases w.c.currentMemoryLimits <;> rfl
  all_goals rfl

/-- Every call `Host.quiet` answers succeeds. -/
theorem Host.quiet_succeeds : Host.quiet.Succeeds where
  run _ _ := rfl
  start _ _ := rfl
  cgroupsSet _ _ _ _ := rfl
  networkJSON _ := ⟨_, rfl⟩
  encode _ _ := rfl
  acquiresNonzero _ _ hp := by cases hp; decide

/-- The fresh container restored in the examples below. -/
def freshWorld : World Unit Nat Nat := ⟨newLinuxContainer [] [] [] [] 0 [], ()⟩

/-- A run that limits bandwidth and memory, maps a port in, opens a rule out, records an event
and starts the container. -/
def busyOps : List (Op Nat Nat) :=
  [.limitBandwidth 1, .limitMemory ⟨100⟩, .netIn 0 8080,
    .netOut (GoString.ofString "10.0.0.0/8") 443, .registerEvent (GoString.ofString "out of memory"),
    .start]

/-- The container after `busyOps` on `Host.quiet`: active, with both limits, the oom notifier,
the port the pool handed out mapped in, the rule out and the event. -/
def busyWorld : World Unit Nat Nat :=
  ⟨{ freshWorld.c with
    state := stateActive
    events := [GoString.ofString "out of memory"]
    oomNotifier := some ⟨[[], GoString.ofString "bin", GoString.ofString "oom"], [[]], []⟩
    currentBandwidthLimits := some 1
    currentMemoryLimits := some ⟨100⟩
    netIns := [⟨61001, 8080⟩]
    netOuts := [⟨GoString.ofString "10.0.0.0/8", 443⟩] }, ()⟩

/-- The busy container of `busyOps`, snapshotted and restored into a fresh one. -/
theorem restore_snapshot_fresh :
    busyOps.forM (Op.run Host.quiet) freshWorld = .ok () busyWorld ∧
      Reachable Host.quiet busyWorld ∧
      ∃ snap w1, snapshot Host.quiet busyWorld = .ok snap w1 ∧
      ∃ w2, restore Host.quiet snap freshWorld = .ok () w2 ∧
      ∃ snap' w3, snapshot Host.quiet w2 = .ok snap' w3 ∧
        snap'.state = snap.state ∧ snap'.events = snap.events ∧ snap'.envVars = snap.envVars ∧
        snap'.netIns = snap.netIns ∧ snap'.netOuts = snap.netOuts ∧
        snap'.limits.memory = snap.limits.memory ∧
        snap'.limits.bandwidth = none ∧ snap'.limits.cpu = none ∧ snap'.limits.disk = none := by
  have hrun : busyOps.forM (Op.run Host.quiet) freshWorld = .ok () busyWorld := by
    have h5 : (busyOps.take 5).forM (Op.run Host.quiet) freshWorld =
        .ok () ⟨{ busyWorld.c with state := stateBorn }, ()⟩ := rfl
    rw [show busyOps = busyOps.take 5 ++ [.start] from rfl, List.forM_append, bind_of_ok h5]
    -- `Start` reads the PID with `fscanfInt`, well-founded recursion that `rfl` does not unfold
    with_unfolding_all rfl
  have hw := Reachable.forM_run Host.quiet (.new [] [] [] [] 0 [] ()) busyOps hrun
  obtain ⟨snap, w1, hs⟩ := snapshot_succeeds Host.quiet_succeeds busyWorld
  exact ⟨hrun, hw, snap, w1, hs,
    restore_snapshot Host.quiet Host.quiet_succeeds hw hs [] [] [] [] 0 [] ()⟩

/-- A container whose bandwidth was limited: its snapshot holds the limit, and the snapshot of
the container restored from it does not. -/
theorem restore_drops_bandwidth :
    ∃ (h : Host Unit Nat Nat) (w : World Unit Nat Nat), h.Succeeds ∧ Reachable h w ∧
      ∃ snap w1, snapshot h w = .ok snap w1 ∧
      ∃ w2, restore h snap freshWorld = .ok () w2 ∧
      ∃ snap' w3, snapshot h w2 = .ok snap' w3 ∧
        snap.limits.bandwidth = some 1 ∧ snap'.limits.bandwidth = none := by
  have hw : Reachable Host.quiet ⟨{ freshWorld.c with currentBandwidthLimits := some 1 }, ()⟩ :=
    .step (.limitBandwidth 1) (.new [] [] [] [] 0 [] ()) rfl
  obtain ⟨snap, w1, h1⟩ := snapshot_succeeds Host.quiet_succeeds
    ⟨{ freshWorld.c with currentBandwidthLimits := some 1 }, ()⟩
  obtain ⟨-, -, -, hin, hout, hlim⟩ := snapshot_ok h1
  obtain ⟨_, w2, hr, o, hc⟩ :=
    restore_triple Host.quiet_succeeds snap (by simp [hin, freshWorld, newLinuxContainer])
    (by simp [hout, freshWorld, newLinuxContainer]) ⟨rfl, rfl, rfl⟩ freshWorld rfl
  obtain ⟨snap', w3, h3⟩ := snapshot_succeeds Host.quiet_succeeds w2
  obtain ⟨-, -, -, -, -, hlim'⟩ := snapshot_ok h3
  refine ⟨_, _, Host.quiet_succeeds, hw, snap, w1, h1, w2, hr, snap', w3, h3, ?_, ?_⟩
  · rw [hlim]
  · rw [hlim', hc]; rfl

end Agree

end LinuxBackend

end GardenLinux
