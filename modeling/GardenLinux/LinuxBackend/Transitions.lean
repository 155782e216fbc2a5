import GardenLinux.LinuxBackend.Container

/-!
# What each operation does to a container

One lemma per operation says what a successful run of it does to the container: which fields
it sets and to what, every other field kept. The invariants of reachable containers and the
snapshot and restore results derive from these lemmas and never unfold an operation again.

`Op` lists the operations a caller runs on a live container, `Reachable` the worlds reached from
`NewLinuxContainer` by successful ones, with the host free to change in between (other
containers share the pool and the managers). `Op.run_ok` says once what any successful operation
can do: the container after it is `Op.apply` of a notifier and ports the host allows
(`Op.Guard`). Every invariant derives from it. Over reachable worlds, every recorded port mapping
has two non-zero ports and every recorded rule names a port or a network (`Replayable`), as long
as the pool never hands out port 0 (`Reachable.replayable`): exactly what `Restore` needs to run
them again as they were recorded. A recorded memory limit always comes with a notifier
(`Reachable.memoryWatched`), but the notifier is recorded before it is started, so one whose
start failed stays recorded and is never started again (`limitMemory_start_fails`).
-/

namespace GardenLinux

namespace LinuxBackend

section Specs

variable {σ Bw Dk α : Type} {h : Host σ Bw Dk} {w w' : World σ Bw Dk}

/-- A checked call, then an update of the container: the shape of `LimitBandwidth`,
`LimitDisk` and `LimitCPU`. -/
theorem call_modifyC_ok {g : σ → σ × Option GoError}
    {f : LinuxContainer Bw Dk → LinuxContainer Bw Dk} {u : Unit} :
    (call g >>= fun _ => modifyC f : M σ Bw Dk Unit) w = .ok u w' ↔
      (g w.host).2 = none ∧ w' = ⟨f w.c, (g w.host).1⟩ := by
  rw [bind_ok]
  constructor
  · rintro ⟨_, w1, h1, h2⟩
    obtain ⟨hg, rfl⟩ := call_ok.1 h1
    simp only [modifyC_apply, EStateM.Result.ok.injEq] at h2
    exact ⟨hg, h2.2.symm⟩
  · rintro ⟨hg, rfl⟩
    exact ⟨(), _, call_of_ok hg, rfl⟩

/-- `LimitBandwidth` succeeds exactly when the bandwidth manager does, and records the limits.
Reference: `src/unnamed/part_000:606`. -/
theorem limitBandwidth_ok {l : Bw} {u : Unit} :
    limitBandwidth h l w = .ok u w' ↔ (h.bandwidthSetLimits l w.host).2 = none ∧
      w' = ⟨{ w.c with currentBandwidthLimits := some l }, (h.bandwidthSetLimits l w.host).1⟩ :=
  call_modifyC_ok

/-- `LimitDisk` succeeds exactly when the quota manager does, and records the limits.
Reference: `src/unnamed/part_000:633`. -/
theorem limitDisk_ok {l : Dk} {u : Unit} :
    limitDisk h l w = .ok u w' ↔ (h.quotaSetLimits l w.host).2 = none ∧
      w' = ⟨{ w.c with currentDiskLimits := some l }, (h.quotaSetLimits l w.host).1⟩ :=
  call_modifyC_ok

/-- `LimitCPU` succeeds exactly when the write of `cpu.shares` does, and records the limits.
Reference: `src/unnamed/part_000:698`. -/
theorem limitCPU_ok {l : CPULimits} {u : Unit} :
    limitCPU h l w = .ok u w' ↔
      (h.cgroupsSet cpu cpuShares (Strconv.formatUint l.limitInShares.toNat) w.host).2 = none ∧
      w' = ⟨{ w.c with currentCPULimits := some l },
        (h.cgroupsSet cpu cpuShares (Strconv.formatUint l.limitInShares.toNat) w.host).1⟩ :=
  call_modifyC_ok

/-- `startOomNotifier` sets the notifier, and nothing else. -/
theorem startOomNotifier_ok {u : Unit} (hr : startOomNotifier h w = .ok u w') :
    ∃ o, w'.c = { w.c with oomNotifier := some o } := by
  unfold startOomNotifier at hr
  rw [bind_of_ok (getC_apply w)] at hr
  rcases ho : w.c.oomNotifier with _ | o <;> simp only [ho] at hr
  · rw [bind_of_ok (read_apply _ w), bind_of_ok (modifyC_apply _ _)] at hr
    obtain ⟨-, rfl⟩ := call_ok.1 hr
    exact ⟨_, rfl⟩
  · cases hr
    exact ⟨o, by rw [← ho]⟩

/-- `LimitMemory` sets the notifier and the memory limits. -/
theorem limitMemory_ok {l : MemoryLimits} {u : Unit} (hr : limitMemory h l w = .ok u w') :
    ∃ o, w'.c = { w.c with oomNotifier := some o, currentMemoryLimits := some l } := by
  unfold limitMemory at hr
  obtain ⟨_, w1, h1, hr⟩ := bind_ok.1 hr
  obtain ⟨o, ho⟩ := startOomNotifier_ok h1
  rw [bind_of_ok (callIgnoring_apply _ _), bind_of_ok (callIgnoring_apply _ _)] at hr
  obtain ⟨_, w2, h2, hr⟩ := bind_ok.1 hr
  obtain ⟨-, rfl⟩ := call_ok.1 h2
  simp only [modifyC_apply, EStateM.Result.ok.injEq] at hr
  rw [← hr.2]
  exact ⟨o, by simp [ho]⟩

/-- The host port `NetIn` uses: the one given, or, for 0, one the pool handed out. -/
theorem acquireHostPort_ok {hp p : UInt32} (hr : acquireHostPort h hp w = .ok p w') :
    w'.c = w.c ∧ ((hp ≠ 0 ∧ p = hp) ∨ (hp = 0 ∧ (h.acquirePort w.host).2 = .ok p)) := by
  unfold acquireHostPort at hr
  split at hr
  · obtain ⟨q, w1, h1, hr⟩ := bind_ok.1 hr
    obtain ⟨hq, rfl⟩ := ask_ok.1 h1
    rw [bind_of_ok (effect_apply _ _)] at hr
    cases hr
    exact ⟨rfl, .inr ⟨‹_›, hq⟩⟩
  · cases hr
    exact ⟨rfl, .inl ⟨‹_›, rfl⟩⟩

/-- `NetIn` records one mapping: the host port given or handed out, and the container port
given, or the host port for 0. -/
theorem netIn_ok {hp cp : UInt32} {r : UInt32 × UInt32} (hr : netIn h hp cp w = .ok r w') :
    ((hp ≠ 0 ∧ r.1 = hp) ∨ (hp = 0 ∧ ∃ s, (h.acquirePort s).2 = .ok r.1)) ∧
      r.2 = (if cp = 0 then r.1 else cp) ∧
      w'.c = { w.c with netIns := w.c.netIns ++ [⟨r.1, r.2⟩] } := by
  unfold netIn at hr
  obtain ⟨p, w1, h1, hr⟩ := bind_ok.1 hr
  obtain ⟨hc, hp'⟩ := acquireHostPort_ok h1
  rw [bind_of_ok (getC_apply _), bind_of_ok (read_apply _ _)] at hr
  obtain ⟨_, w2, h2, hr⟩ := bind_ok.1 hr
  obtain ⟨-, rfl⟩ := call_ok.1 h2
  rw [bind_of_ok (modifyC_apply _ _)] at hr
  cases hr
  refine ⟨?_, rfl, by simp [hc]⟩
  rcases hp' with ⟨h0, rfl⟩ | ⟨h0, ha⟩
  · exact .inl ⟨h0, rfl⟩
  · exact .inr ⟨h0, _, ha⟩

/-- `net.sh out` gets an environment exactly when a port or a network is given. -/
theorem netOutEnv_ok {network path : GoString} {port : UInt32} {env : List GoString}
    (hr : netOutEnv network port path = .ok env) : port ≠ 0 ∨ network ≠ [] := by
  unfold netOutEnv at hr
  split_ifs at hr with h1 h2
  · exact .inl h1
  · exact .inr h2

/-- `NetOut` records one rule, which names a port or a network. -/
theorem netOut_ok {network : GoString} {port : UInt32} {u : Unit}
    (hr : netOut h network port w = .ok u w') :
    (port ≠ 0 ∨ network ≠ []) ∧
      w'.c = { w.c with netOuts := w.c.netOuts ++ [⟨network, port⟩] } := by
  unfold netOut at hr
  rw [bind_of_ok (getC_apply _), bind_of_ok (read_apply _ _)] at hr
  obtain ⟨env, w1, h1, hr⟩ := bind_ok.1 hr
  obtain ⟨henv, rfl⟩ := readE_ok.1 h1
  obtain ⟨_, w2, h2, hr⟩ := bind_ok.1 hr
  obtain ⟨-, rfl⟩ := call_ok.1 h2
  cases hr
  exact ⟨netOutEnv_ok henv, rfl⟩

/-- `Start` makes the container active. -/
theorem start_ok {u : Unit} (hr : start h w = .ok u w') :
    w'.c = { w.c with state := stateActive } := by
  unfold start at hr
  rw [bind_of_ok (getC_apply _), bind_of_ok (read_apply _ _)] at hr
  obtain ⟨_, w1, h1, hr⟩ := bind_ok.1 hr
  obtain ⟨-, rfl⟩ := call_ok.1 h1
  obtain ⟨pid, w2, h2, hr⟩ := bind_ok.1 hr
  obtain ⟨-, rfl⟩ := readE_ok.1 h2
  obtain ⟨_, w3, h3, hr⟩ := bind_ok.1 hr
  obtain ⟨-, rfl⟩ := call_ok.1 h3
  cases hr
  rfl

/-- `stopOomNotifier` only kills. -/
theorem stopOomNotifier_ok {u : Unit} (hr : stopOomNotifier h w = .ok u w') : w'.c = w.c := by
  unfold stopOomNotifier at hr
  rw [bind_of_ok (getC_apply _)] at hr
  rcases ho : w.c.oomNotifier with _ | o <;> simp only [ho] at hr <;> cases hr <;> rfl

/-- `Stop` makes the container stopped. -/
theorem stop_ok {kill : Bool} {u : Unit} (hr : stop h kill w = .ok u w') :
    w'.c = { w.c with state := stateStopped } := by
  unfold stop at hr
  rw [bind_of_ok (getC_apply _)] at hr
  obtain ⟨_, w1, h1, hr⟩ := bind_ok.1 hr
  obtain ⟨-, rfl⟩ := call_ok.1 h1
  obtain ⟨_, w2, h2, hr⟩ := bind_ok.1 hr
  have hc := stopOomNotifier_ok h2
  cases hr
  simp [setState, hc]

/-- `RemoveProperty` removes the entry of a key it finds. -/
theorem removeProperty_ok {k : GoString} {u : Unit} (hr : removeProperty k w = .ok u w') :
    w'.c = { w.c with properties := w.c.properties.filter (·.1 ≠ k) } := by
  unfold removeProperty at hr
  rw [bind_of_ok (getC_apply _)] at hr
  rcases hk : w.c.properties.lookup k with _ | v <;> simp only [hk] at hr <;> cases hr
  rfl

end Specs

/-! ## Reachable containers -/

/-- The operations a caller runs on a live container. -/
inductive Op (Bw Dk : Type)
  | limitBandwidth (limits : Bw)
  | limitCPU (limits : CPULimits)
  | limitDisk (limits : Dk)
  | limitMemory (limits : MemoryLimits)
  | netIn (hostPort containerPort : UInt32)
  | netOut (network : GoString) (port : UInt32)
  | start
  | stop (kill : Bool)
  | registerEvent (event : GoString)
  | setProperty (key value : GoString)
  | removeProperty (key : GoString)

section Reach

variable {σ Bw Dk : Type} (h : Host σ Bw Dk)

/-- Running an operation, its result dropped. -/
def Op.run : Op Bw Dk → M σ Bw Dk Unit
  | .limitBandwidth l => LinuxBackend.limitBandwidth h l
  | .limitCPU l => LinuxBackend.limitCPU h l
  | .limitDisk l => LinuxBackend.limitDisk h l
  | .limitMemory l => LinuxBackend.limitMemory h l
  | .netIn hp cp => do let _ ← LinuxBackend.netIn h hp cp
  | .netOut network port => LinuxBackend.netOut h network port
  | .start => LinuxBackend.start h
  | .stop kill => LinuxBackend.stop h kill
  | .registerEvent e => LinuxBackend.registerEvent e
  | .setProperty k v => LinuxBackend.setProperty k v
  | .removeProperty k => LinuxBackend.removeProperty k

/-- The worlds reached from `NewLinuxContainer` by successful operations, the host changing
freely in between. -/
inductive Reachable : World σ Bw Dk → Prop
  | new (id handle path : GoString) (properties : List (GoString × GoString)) (graceTime : Nat)
      (envvars : List GoString) (s : σ) :
      Reachable ⟨newLinuxContainer id handle path properties graceTime envvars, s⟩
  | step {w w' : World σ Bw Dk} (op : Op Bw Dk) :
      Reachable w → op.run h w = .ok () w' → Reachable w'
  | host {w : World σ Bw Dk} (s : σ) : Reachable w → Reachable ⟨w.c, s⟩

/-- Operations run one after another from a reachable world reach a world. -/
theorem Reachable.forM_run {w w' : World σ Bw Dk} (hw : Reachable h w) (ops : List (Op Bw Dk))
    (hrun : ops.forM (Op.run h) w = .ok () w') : Reachable h w' := by
  induction ops generalizing w with
  | nil => cases hrun; exact hw
  | cons op ops ih =>
    rw [List.forM_cons'] at hrun
    obtain ⟨_, w1, h1, h2⟩ := bind_ok.1 hrun
    exact ih (.step op hw h1) h2

/-- The pool never hands out port 0. -/
def Host.AcquiresNonzero : Prop := ∀ s p, (h.acquirePort s).2 = .ok p → p ≠ 0

/-- What the host allows a successful operation to record: `NetIn`'s ports are the host port
given, or one the pool handed out for 0, and the container port given, or the host port for 0;
`NetOut`'s rule names a port or a network. -/
def Op.Guard (ports : UInt32 × UInt32) : Op Bw Dk → Prop
  | .netIn hp cp => ((hp ≠ 0 ∧ ports.1 = hp) ∨ (hp = 0 ∧ ∃ s, (h.acquirePort s).2 = .ok ports.1)) ∧
      ports.2 = if cp = 0 then ports.1 else cp
  | .netOut network port => port ≠ 0 ∨ network ≠ []
  | _ => True

end Reach

/-- What a successful operation does to the container, given the notifier `LimitMemory` records
and the ports `NetIn` records: the fields it sets, every other field kept. -/
def Op.apply {Bw Dk : Type} (c : LinuxContainer Bw Dk) (oom : Command) (ports : UInt32 × UInt32) :
    Op Bw Dk → LinuxContainer Bw Dk
  | .limitBandwidth l => { c with currentBandwidthLimits := some l }
  | .limitCPU l => { c with currentCPULimits := some l }
  | .limitDisk l => { c with currentDiskLimits := some l }
  | .limitMemory l => { c with oomNotifier := some oom, currentMemoryLimits := some l }
  | .netIn _ _ => { c with netIns := c.netIns ++ [⟨ports.1, ports.2⟩] }
  | .netOut network port => { c with netOuts := c.netOuts ++ [⟨network, port⟩] }
  | .start => { c with state := stateActive }
  | .stop _ => { c with state := stateStopped }
  | .registerEvent e => { c with events := c.events ++ [e] }
  | .setProperty k v => { c with properties := (k, v) :: c.properties.filter (·.1 ≠ k) }
  | .removeProperty k => { c with properties := c.properties.filter (·.1 ≠ k) }

/-- **What a successful operation can do**: the container after it is `Op.apply` of some
notifier and ports that the host allows. Every invariant below derives from this lemma. Reference:
`src/unnamed/part_000:354` to `:856`. -/
theorem Op.run_ok {σ Bw Dk : Type} {h : Host σ Bw Dk} {w w' : World σ Bw Dk} {op : Op Bw Dk}
    (hop : op.run h w = .ok () w') :
    ∃ oom ports, w'.c = op.apply w.c oom ports ∧ op.Guard h ports := by
  cases op with
  | limitBandwidth l =>
    obtain ⟨-, rfl⟩ := limitBandwidth_ok.1 hop; exact ⟨default, default, rfl, ⟨⟩⟩
  | limitCPU l => obtain ⟨-, rfl⟩ := limitCPU_ok.1 hop; exact ⟨default, default, rfl, ⟨⟩⟩
  | limitDisk l => obtain ⟨-, rfl⟩ := limitDisk_ok.1 hop; exact ⟨default, default, rfl, ⟨⟩⟩
  | limitMemory l =>
    obtain ⟨o, ho⟩ := limitMemory_ok hop
    exact ⟨o, default, ho, ⟨⟩⟩
  | netIn hpt cpt =>
    obtain ⟨r, w1, h1, h2⟩ := bind_ok.1 hop
    cases h2
    obtain ⟨hport, hcp, hc⟩ := netIn_ok h1
    exact ⟨default, r, hc, hport, hcp⟩
  | netOut network port =>
    obtain ⟨hv, hc⟩ := netOut_ok hop
    exact ⟨default, default, hc, hv⟩
  | start => exact ⟨default, default, start_ok hop, ⟨⟩⟩
  | stop kill => exact ⟨default, default, stop_ok hop, ⟨⟩⟩
  | registerEvent e => cases hop; exact ⟨default, default, rfl, ⟨⟩⟩
  | setProperty k v => cases hop; exact ⟨default, default, rfl, ⟨⟩⟩
  | removeProperty k => exact ⟨default, default, removeProperty_ok hop, ⟨⟩⟩

/-- A container whose port mappings and rules can be run again as they were recorded: every
mapping has two non-zero ports, so `NetIn` neither acquires nor defaults a port; every rule
names a port or a network, so `NetOut` accepts it. -/
structure Replayable {Bw Dk : Type} (c : LinuxContainer Bw Dk) : Prop where
  netIns : ∀ n ∈ c.netIns, n.hostPort ≠ 0 ∧ n.containerPort ≠ 0
  netOuts : ∀ o ∈ c.netOuts, o.port ≠ 0 ∨ o.network ≠ []

section Replay

variable {σ Bw Dk : Type} {h : Host σ Bw Dk}

/-- A new container records no mapping and no rule. -/
theorem Replayable.new (id handle path : GoString) (properties : List (GoString × GoString))
    (graceTime : Nat) (envvars : List GoString) :
    Replayable
      (newLinuxContainer id handle path properties graceTime envvars : LinuxContainer Bw Dk) :=
  ⟨by simp [newLinuxContainer], by simp [newLinuxContainer]⟩

/-- A container with the same mappings and rules is as replayable. -/
theorem Replayable.of_eq {c c' : LinuxContainer Bw Dk} (hr : Replayable c)
    (hi : c'.netIns = c.netIns) (ho : c'.netOuts = c.netOuts) : Replayable c' :=
  ⟨hi ▸ hr.netIns, ho ▸ hr.netOuts⟩

/-- A write the host allows keeps a container replayable, when the pool never hands out
port 0. -/
theorem Replayable.apply (hp : h.AcquiresNonzero) {c : LinuxContainer Bw Dk} {oom : Command}
    {ports : UInt32 × UInt32} {op : Op Bw Dk} (hr : Replayable c) (hg : op.Guard h ports) :
    Replayable (op.apply c oom ports) := by
  cases op
  case netIn hpt cpt =>
    obtain ⟨hport, hcp⟩ := hg
    have h1 : ports.1 ≠ 0 := by
      rcases hport with ⟨h0, he⟩ | ⟨-, s, ha⟩
      · rw [he]; exact h0
      · exact hp s _ ha
    have h2 : ports.2 ≠ 0 := by rw [hcp]; split_ifs <;> assumption
    refine ⟨?_, hr.netOuts⟩
    simp only [Op.apply, List.mem_append, List.mem_singleton]
    rintro n (hn | rfl)
    · exact hr.netIns n hn
    · exact ⟨h1, h2⟩
  case netOut network port =>
    refine ⟨hr.netIns, ?_⟩
    simp only [Op.apply, List.mem_append, List.mem_singleton]
    rintro o (ho | rfl)
    · exact hr.netOuts o ho
    · exact hg
  all_goals exact hr.of_eq rfl rfl

/-- **Every operation keeps a container replayable**, when the pool never hands out port 0.
Reference: `src/unnamed/part_000:768` and `:804`. -/
theorem Replayable.step (hp : h.AcquiresNonzero) {w w' : World σ Bw Dk} {op : Op Bw Dk}
    (hr : Replayable w.c) (hop : op.run h w = .ok () w') : Replayable w'.c := by
  obtain ⟨oom, ports, hc, hg⟩ := Op.run_ok hop
  rw [hc]
  exact hr.apply hp hg

/-- **Reachable containers are replayable**, when the pool never hands out port 0. Reference:
`src/unnamed/part_000:768` and `:804`. -/
theorem Reachable.replayable (hp : h.AcquiresNonzero) {w : World σ Bw Dk} (hw : Reachable h w) :
    Replayable w.c := by
  induction hw with
  | new => exact Replayable.new ..
  | step op _ hop ih => exact ih.step hp hop
  | host s _ ih => exact ih

/-! ## The oom notifier of a limited container -/

/-- A container with a memory limit has an oom notifier. -/
def MemoryWatched (c : LinuxContainer Bw Dk) : Prop :=
  c.currentMemoryLimits.isSome → c.oomNotifier.isSome

/-- `MemoryWatched` reads only the memory limit and the notifier. -/
theorem MemoryWatched.of_eq {c c' : LinuxContainer Bw Dk} (hm : MemoryWatched c)
    (hl : c'.currentMemoryLimits = c.currentMemoryLimits) (ho : c'.oomNotifier = c.oomNotifier) :
    MemoryWatched c' := by
  unfold MemoryWatched
  rw [hl, ho]
  exact hm

/-- Every operation keeps a limited container watched: `LimitMemory` sets the notifier before
the limit, and no operation unsets it (`Stop` kills the notifier and keeps it). -/
theorem MemoryWatched.step {w w' : World σ Bw Dk} {op : Op Bw Dk} (hm : MemoryWatched w.c)
    (hop : op.run h w = .ok () w') : MemoryWatched w'.c := by
  obtain ⟨oom, ports, hc, -⟩ := Op.run_ok hop
  rw [hc]
  cases op
  case limitMemory l => exact fun _ => rfl
  all_goals exact hm.of_eq rfl rfl

/-- **A reachable container with a memory limit has an oom notifier.** Reference:
`src/unnamed/part_000:654` and `:856`. -/
theorem Reachable.memoryWatched {w : World σ Bw Dk} (hw : Reachable h w) : MemoryWatched w.c := by
  induction hw with
  | new => exact fun h => absurd h (by simp [newLinuxContainer])
  | step op _ hop ih => exact ih.step hop
  | host s _ ih => exact ih

/-- `startOomNotifier` does nothing once a notifier is recorded. -/
theorem startOomNotifier_of_isSome {w : World σ Bw Dk} (hn : w.c.oomNotifier.isSome) :
    startOomNotifier h w = .ok () w := by
  obtain ⟨o, ho⟩ := Option.isSome_iff_exists.1 hn
  rw [startOomNotifier, bind_of_ok (getC_apply w), ho]
  rfl

/-- No operation drops a recorded notifier. -/
theorem Op.oomNotifier_isSome {w w' : World σ Bw Dk} {op : Op Bw Dk}
    (hop : op.run h w = .ok () w') (hn : w.c.oomNotifier.isSome) : w'.c.oomNotifier.isSome := by
  obtain ⟨oom, ports, hc, -⟩ := Op.run_ok hop
  rw [hc]
  cases op
  case limitMemory l => rfl
  all_goals exact hn

/-- No run of operations drops a recorded notifier. -/
theorem forM_oomNotifier_isSome {w w' : World σ Bw Dk} (ops : List (Op Bw Dk))
    (hrun : ops.forM (Op.run h) w = .ok () w') (hn : w.c.oomNotifier.isSome) :
    w'.c.oomNotifier.isSome := by
  induction ops generalizing w with
  | nil => cases hrun; exact hn
  | cons op ops ih =>
    rw [List.forM_cons'] at hrun
    obtain ⟨_, w1, h1, h2⟩ := bind_ok.1 hrun
    exact ih h2 (Op.oomNotifier_isSome h1 hn)

/-- **A notifier that failed to start is never started again.** `startOomNotifier` records the
notifier before it starts it. When the runner fails to start it, `LimitMemory` returns the
runner's error with the notifier recorded and no limit recorded; from then on, whatever
operations succeed and however the host changes, `startOomNotifier` does nothing, so no
`LimitMemory` starts a notifier for the container again. Reference: `src/unnamed/part_000:654` and
`:856`. -/
theorem limitMemory_start_fails {w : World σ Bw Dk} {e : GoError} (hn : w.c.oomNotifier = none)
    (hs : (h.start ⟨[w.c.path, GoString.ofString "bin", GoString.ofString "oom"],
      [h.subsystemPath memory w.host], []⟩ w.host).2 = some e) (l : MemoryLimits) :
    ∃ w1, limitMemory h l w = .error e w1 ∧ w1.c.currentMemoryLimits = w.c.currentMemoryLimits ∧
      ∀ (s : σ) (ops : List (Op Bw Dk)) (w2 : World σ Bw Dk),
        ops.forM (Op.run h) ⟨w1.c, s⟩ = .ok () w2 → startOomNotifier h w2 = .ok () w2 := by
  let oom : Command :=
    ⟨[w.c.path, GoString.ofString "bin", GoString.ofString "oom"],
      [h.subsystemPath memory w.host], []⟩
  have hstart : startOomNotifier h w =
      .error e ⟨{ w.c with oomNotifier := some oom }, (h.start oom w.host).1⟩ := by
    rw [startOomNotifier, bind_of_ok (getC_apply w), hn]
    dsimp only
    rw [bind_of_ok (read_apply _ w), bind_of_ok (modifyC_apply _ _), call]
    rcases hst : h.start oom w.host with ⟨s, _ | e'⟩
    · rw [hst] at hs; cases hs
    · rw [hst] at hs; cases hs; rfl
  refine ⟨_, bind_of_error hstart, rfl, fun s ops w2 hrun => ?_⟩
  exact startOomNotifier_of_isSome (forM_oomNotifier_isSome ops hrun rfl)

end Replay

/-- A host whose every call succeeds and changes nothing; its pool hands out port 61001. -/
def Host.quiet : Host Unit Nat Nat where
  run _ s := (s, none)
  start _ s := (s, none)
  kill _ s := s
  subsystemPath _ _ := []
  cgroupsSet _ _ _ s := (s, none)
  cgroupsGet _ _ _ := .ok []
  bandwidthSetLimits _ s := (s, none)
  quotaSetLimits _ s := (s, none)
  acquirePort s := (s, .ok 61001)
  addPort _ s := s
  readFile _ _ := .ok (GoString.ofString "1\n")
  erect _ s := (s, none)
  restoreProcess _ s := s
  activeProcesses _ := []
  resources _ := ⟨0, 0, []⟩
  networkJSON _ := .ok []
  encode _ s := (s, none)
  getenv _ _ := []

/-- The quiet host, except that the runner starts nothing. -/
def Host.noStart : Host Unit Nat Nat :=
  { Host.quiet with start := fun _ s => (s, some (.text (GoString.ofString "cannot start"))) }

/-- On `Host.noStart`, the first `LimitMemory` fails with the runner's error and records no limit,
and no run after it starts a notifier again. -/
theorem limitMemory_start_fails_noStart :
    ∃ w1, limitMemory Host.noStart ⟨100⟩
        (⟨newLinuxContainer [] [] [] [] 0 [], ()⟩ : World Unit Nat Nat) =
          .error (.text (GoString.ofString "cannot start")) w1 ∧ w1.c.currentMemoryLimits = none ∧
      ∀ (s : Unit) (ops : List (Op Nat Nat)) (w2 : World Unit Nat Nat),
        ops.forM (Op.run Host.noStart) ⟨w1.c, s⟩ = .ok () w2 →
          startOomNotifier Host.noStart w2 = .ok () w2 :=
  limitMemory_start_fails rfl rfl ⟨100⟩

/-- A fresh container after `LimitMemory` with a 100-byte limit, on the quiet host. -/
def limitedWorld : World Unit Nat Nat :=
  ⟨{ newLinuxContainer [] [] [] [] 0 [] with
    oomNotifier := some ⟨[[], GoString.ofString "bin", GoString.ofString "oom"], [[]], []⟩
    currentMemoryLimits := some ⟨100⟩ }, ()⟩

/-- `limitedWorld` is reached by one `LimitMemory`, and has its notifier. -/
theorem Reachable.memoryWatched_limitedWorld :
    Reachable Host.quiet limitedWorld ∧ MemoryWatched limitedWorld.c :=
  have hw : Reachable Host.quiet limitedWorld :=
    .step (.limitMemory ⟨100⟩) (.new [] [] [] [] 0 [] ()) rfl
  ⟨hw, Reachable.memoryWatched hw⟩

end LinuxBackend

end GardenLinux
