import GardenLinux.LinuxBackend.Transitions

/-!
# What a caller sees of a container

A caller asks for operations and the host answers them, but most of what the container records
does not depend on the answers: its state, its events, its properties, the limits last set, the
rules `NetOut` recorded and its environment (`View`). Only the notifier command, which names the
memory cgroup's path, and the host ports `NetIn` records, which the pool may choose, are the
host's part.

Each successful operation changes the view as `Op.viewStep` says, a function of the operation
alone (`view_apply`, from `Op.run_ok`). So the container refines this machine over every run:
after operations that all succeed, whatever the host answered, the view is the first one with
each operation's step applied in turn (`view_forM_run`).

`api.Properties` is a Go map; the model keeps it as a list of entries, and the container's
methods see it through `lookup`: a key's value is its first entry's (`propertyMap`). Over the map,
`SetProperty` and `RemoveProperty` are Go's `m[k] = v` and `delete(m, k)`; `GetProperty` reads it
(`getProperty_eq`), and it and `RemoveProperty` fail on a key the map lacks with
`property does not exist: <key>`, leaving the container and the host as they were
(`property_absent`).
-/

namespace GardenLinux

namespace LinuxBackend

/-! ## Properties as a map -/

/-- The map the entries stand for: a key's value is its first entry's. -/
def propertyMap {Bw Dk : Type} (c : LinuxContainer Bw Dk) (k : GoString) : Option GoString :=
  c.properties.lookup k

/-- Looking a key up: the first entry, when it has the key; else the rest. -/
theorem lookup_cons_entry (k k' v : GoString) (ps : List (GoString × GoString)) :
    ((k, v) :: ps).lookup k' = if k' = k then some v else ps.lookup k' := by
  by_cases hk : k' = k
  · subst hk; simp
  · rw [List.lookup_cons, beq_false_of_ne hk, if_neg hk]

/-- Dropping a key's entries deletes it from the map. -/
theorem lookup_filter_ne (ps : List (GoString × GoString)) (k k' : GoString) :
    (ps.filter (·.1 ≠ k)).lookup k' = if k' = k then none else ps.lookup k' := by
  induction ps with
  | nil => simp
  | cons p ps ih =>
    obtain ⟨a, b⟩ := p
    by_cases ha : a = k
    · subst ha
      rw [List.filter_cons_of_neg (by simp), ih, lookup_cons_entry]
      split_ifs <;> simp_all
    · rw [List.filter_cons_of_pos (by simpa), lookup_cons_entry, lookup_cons_entry, ih]
      split_ifs <;> simp_all

section Map

variable {Bw Dk : Type} (c : LinuxContainer Bw Dk) (k : GoString)

/-- `SetProperty` is `m[k] = v`. -/
theorem propertyMap_setEntry (v : GoString) :
    propertyMap { c with properties := (k, v) :: c.properties.filter (·.1 ≠ k) } =
      Function.update (propertyMap c) k (some v) := by
  funext k'
  simp only [propertyMap, Function.update_apply, lookup_cons_entry, lookup_filter_ne]
  split_ifs <;> rfl

/-- `RemoveProperty` is `delete(m, k)`. -/
theorem propertyMap_dropEntries :
    propertyMap { c with properties := c.properties.filter (·.1 ≠ k) } =
      Function.update (propertyMap c) k none := by
  funext k'
  simp only [propertyMap, Function.update_apply, lookup_filter_ne]

end Map

/-! ## The view and its steps -/

/-- What a caller sees of a container, apart from the host's part. -/
structure View (Bw Dk : Type) where
  state : State
  events : List GoString
  properties : GoString → Option GoString
  bandwidth : Option Bw
  cpu : Option CPULimits
  disk : Option Dk
  memory : Option MemoryLimits
  netOuts : List NetOutSpec
  envvars : List GoString

/-- The view of a container. -/
def LinuxContainer.view {Bw Dk : Type} (c : LinuxContainer Bw Dk) : View Bw Dk :=
  ⟨c.state, c.events, propertyMap c, c.currentBandwidthLimits, c.currentCPULimits,
    c.currentDiskLimits, c.currentMemoryLimits, c.netOuts, c.envvars⟩

/-- What a successful operation does to the view: what the caller asked for, whatever the host
answered. -/
def Op.viewStep {Bw Dk : Type} : Op Bw Dk → View Bw Dk → View Bw Dk
  | .limitBandwidth l, v => { v with bandwidth := some l }
  | .limitCPU l, v => { v with cpu := some l }
  | .limitDisk l, v => { v with disk := some l }
  | .limitMemory l, v => { v with memory := some l }
  | .netIn _ _, v => v
  | .netOut network port, v => { v with netOuts := v.netOuts ++ [⟨network, port⟩] }
  | .start, v => { v with state := stateActive }
  | .stop _, v => { v with state := stateStopped }
  | .registerEvent e, v => { v with events := v.events ++ [e] }
  | .setProperty k val, v => { v with properties := Function.update v.properties k (some val) }
  | .removeProperty k, v => { v with properties := Function.update v.properties k none }

/-- The host's part never shows: whatever notifier and ports an operation records, the view moves
by the operation's step. -/
theorem view_apply {Bw Dk : Type} (c : LinuxContainer Bw Dk) (oom : Command)
    (ports : UInt32 × UInt32) (op : Op Bw Dk) : (op.apply c oom ports).view = op.viewStep c.view := by
  cases op
  case setProperty k v =>
    simp only [Op.apply, LinuxContainer.view, propertyMap_setEntry, Op.viewStep]
  case removeProperty k =>
    simp only [Op.apply, LinuxContainer.view, propertyMap_dropEntries, Op.viewStep]
  all_goals rfl

section Runs

variable {σ Bw Dk : Type} {h : Host σ Bw Dk} {w w' : World σ Bw Dk}

/-- **The container refines its view's machine over every run**: after operations that all
succeed, whatever the host answered, the view is the first one with each operation's step applied
in order. Reference: `src/unnamed/part_000:159` to `:193`. -/
theorem view_forM_run (ops : List (Op Bw Dk)) (hrun : ops.forM (Op.run h) w = .ok () w') :
    w'.c.view = ops.foldl (fun v op => op.viewStep v) w.c.view := by
  induction ops generalizing w with
  | nil => cases hrun; rfl
  | cons op ops ih =>
    rw [List.forM_cons'] at hrun
    obtain ⟨_, w1, h1, h2⟩ := bind_ok.1 hrun
    obtain ⟨oom, ports, hc, -⟩ := Op.run_ok h1
    rw [List.foldl_cons, ← view_apply w.c oom ports op, ← hc]
    exact ih h2

/-- A run that sets `owner`, limits memory, and sets `owner` again. -/
def ownerOps : List (Op Nat Nat) :=
  [.setProperty (GoString.ofString "owner") (GoString.ofString "a"), .limitMemory ⟨100⟩,
    .setProperty (GoString.ofString "owner") (GoString.ofString "b")]

/-- After `ownerOps`, the view holds the second `owner` and the memory limit. -/
theorem view_forM_run_ownerOps :
    ∃ w', ownerOps.forM (Op.run Host.quiet)
        (⟨newLinuxContainer [] [] [] [] 0 [], ()⟩ : World Unit Nat Nat) = .ok () w' ∧
      w'.c.view.properties (GoString.ofString "owner") = some (GoString.ofString "b") ∧
      w'.c.view.memory = some ⟨100⟩ := by
  obtain ⟨w', hrun⟩ : ∃ w', ownerOps.forM (Op.run Host.quiet)
      (⟨newLinuxContainer [] [] [] [] 0 [], ()⟩ : World Unit Nat Nat) = .ok () w' := ⟨_, rfl⟩
  refine ⟨w', hrun, ?_⟩
  rw [view_forM_run ownerOps hrun]
  simp [ownerOps, Op.viewStep]

/-! ## Reading and removing a property -/

/-- `GetProperty` reads the map and changes nothing. -/
theorem getProperty_eq (k : GoString) :
    getProperty k w = match propertyMap w.c k with
      | some v => .ok v w
      | none => .error (undefinedPropertyError k) w := by
  rw [getProperty, bind_of_ok (getC_apply w), propertyMap]
  cases w.c.properties.lookup k <;> rfl

/-- A key the map lacks: `GetProperty` and `RemoveProperty` fail with
`property does not exist: <key>`, and the container and the host stay as they were. -/
theorem property_absent {k : GoString} (hk : propertyMap w.c k = none) :
    getProperty k w = .error (undefinedPropertyError k) w ∧
      removeProperty k w = .error (undefinedPropertyError k) w := by
  refine ⟨by rw [getProperty_eq, hk], ?_⟩
  rw [removeProperty, bind_of_ok (getC_apply w)]
  unfold propertyMap at hk
  simp only [hk]
  rfl

end Runs

end LinuxBackend

end GardenLinux
