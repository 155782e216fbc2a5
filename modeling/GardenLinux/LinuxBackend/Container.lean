import GardenLinux.Go.Fmt
import GardenLinux.Go.Filepath

/-!
# The Linux container

`LinuxContainer` keeps a container's state, its events, the limits last set on it, its port
mappings and allowed traffic, and its environment; everything else it does through its
collaborators: the command runner (the container's shell scripts), the cgroups, quota and
bandwidth managers, the port pool, the process tracker, the network fence and the writer a
snapshot goes to. Their code is not modelled. A `Host σ` gives each collaborator's answer to a
call from a host state `σ` and the host state after it. The files the container reads are the
host's too (`Host.readFile`); `wshdPid` reads the daemon's PID from what `run/wshd.pid` holds.

An operation is an `EStateM` program over the container and the host (`World`). As in Go, an
operation that fails keeps what it did before the failure: an error result carries the world as
it stands. The bandwidth and disk limits are values the container hands to its managers and
keeps, and never reads, so their types are parameters (`Bw`, `Dk`).

The section ends with `Op`, every operation a caller may run on a container, and `Reachable`,
the worlds a container reaches from `NewLinuxContainer` by successful operations; the snapshot
and restore results are stated over these.
-/

namespace GardenLinux

namespace LinuxBackend

open Strconv

/-! ## Values -/

/-- `State`, a Go string type; the three states the code names. -/
abbrev State := GoString

def stateBorn : State := GoString.ofString "born"
def stateActive : State := GoString.ofString "active"
def stateStopped : State := GoString.ofString "stopped"

/-- `api.MemoryLimits`. -/
structure MemoryLimits where
  limitInBytes : UInt64
  deriving DecidableEq, Repr

/-- `api.CPULimits`. -/
structure CPULimits where
  limitInShares : UInt64
  deriving DecidableEq, Repr

structure NetInSpec where
  hostPort : UInt32
  containerPort : UInt32
  deriving DecidableEq, Repr

structure NetOutSpec where
  network : GoString
  port : UInt32
  deriving DecidableEq, Repr

/-- A command to run: the elements `path.Join` joins into its program (the cleaning `Join`
does is not modelled), its arguments after the program, and its environment. -/
structure Command where
  path : List GoString
  args : List GoString
  env : List GoString
  deriving DecidableEq, Repr, Inhabited

/-- The container, with the fields the modelled methods read. Its logger, its mutexes and its
collaborators are the host's; `mtu` is never read. `properties` is the `api.Properties` map as
a list of entries. -/
structure LinuxContainer (Bw Dk : Type) where
  id : GoString
  handle : GoString
  path : GoString
  properties : List (GoString × GoString)
  graceTime : Nat
  state : State
  events : List GoString
  oomNotifier : Option Command
  currentBandwidthLimits : Option Bw
  currentDiskLimits : Option Dk
  currentMemoryLimits : Option MemoryLimits
  currentCPULimits : Option CPULimits
  netIns : List NetInSpec
  netOuts : List NetOutSpec
  envvars : List GoString

/-- `LimitsSnapshot`. -/
structure LimitsSnapshot (Bw Dk : Type) where
  bandwidth : Option Bw
  cpu : Option CPULimits
  disk : Option Dk
  memory : Option MemoryLimits

/-- The container's `Resources`, which are not in the repository's files: its users and the
ports it holds. -/
structure Resources where
  userUID : Nat
  rootUID : Nat
  ports : List UInt32

/-- `ResourcesSnapshot`, with the network fence's JSON. -/
structure ResourcesSnapshot where
  userUID : Nat
  rootUID : Nat
  ports : List UInt32
  network : GoString

/-- `ContainerSnapshot`; a process is kept as its ID, the one field of `ProcessSnapshot`. -/
structure ContainerSnapshot (Bw Dk : Type) where
  id : GoString
  handle : GoString
  graceTime : Nat
  state : State
  events : List GoString
  limits : LimitsSnapshot Bw Dk
  resources : ResourcesSnapshot
  netIns : List NetInSpec
  netOuts : List NetOutSpec
  processes : List UInt32
  properties : List (GoString × GoString)
  envVars : List GoString

/-- `NewLinuxContainer`: born, with no events, no limits, no port mappings and no rules. -/
def newLinuxContainer {Bw Dk : Type} (id handle path : GoString)
    (properties : List (GoString × GoString)) (graceTime : Nat) (envvars : List GoString) :
    LinuxContainer Bw Dk :=
  ⟨id, handle, path, properties, graceTime, stateBorn, [], none, none, none, none, none, [], [],
    envvars⟩

/-! ## Collaborators -/

/-- Each collaborator's answer to a call from host state `σ`, with the host state after it. -/
structure Host (σ Bw Dk : Type) where
  /-- `runner.Run`. -/
  run : Command → σ → σ × Option GoError
  /-- `runner.Start`. -/
  start : Command → σ → σ × Option GoError
  /-- `runner.Kill`, whose error the container ignores. -/
  kill : Command → σ → σ
  /-- `cgroupsManager.SubsystemPath`. -/
  subsystemPath : GoString → σ → GoString
  /-- `cgroupsManager.Set(subsystem, name, value)`. -/
  cgroupsSet : GoString → GoString → GoString → σ → σ × Option GoError
  /-- `cgroupsManager.Get(subsystem, name)`. -/
  cgroupsGet : GoString → GoString → σ → Except GoError GoString
  /-- `bandwidthManager.SetLimits`. -/
  bandwidthSetLimits : Bw → σ → σ × Option GoError
  /-- `quotaManager.SetLimits` for the container's user. -/
  quotaSetLimits : Dk → σ → σ × Option GoError
  /-- `portPool.Acquire`. -/
  acquirePort : σ → σ × Except GoError UInt32
  /-- `resources.AddPort`. -/
  addPort : UInt32 → σ → σ
  /-- `os.Open` of a file and reading it: its contents. -/
  readFile : GoString → σ → Except GoError GoString
  /-- `resources.Network.Erect`. -/
  erect : Int → σ → σ × Option GoError
  /-- `processTracker.Restore`. -/
  restoreProcess : UInt32 → σ → σ
  /-- `processTracker.ActiveProcesses`, by ID. -/
  activeProcesses : σ → List UInt32
  /-- The container's `Resources`. -/
  resources : σ → Resources
  /-- `resources.Network.MarshalJSON`. -/
  networkJSON : σ → Except GoError GoString
  /-- `json.NewEncoder(out).Encode(snapshot)`: the write of a snapshot. -/
  encode : ContainerSnapshot Bw Dk → σ → σ × Option GoError
  /-- `os.Getenv`. -/
  getenv : GoString → σ → GoString

/-- The container and its host. -/
structure World (σ Bw Dk : Type) where
  c : LinuxContainer Bw Dk
  host : σ

/-- An operation on a container. -/
abbrev M (σ Bw Dk α : Type) := EStateM GoError (World σ Bw Dk) α

section Primitives

variable {σ Bw Dk α β : Type}

def getC : M σ Bw Dk (LinuxContainer Bw Dk) := fun w => .ok w.c w

def modifyC (f : LinuxContainer Bw Dk → LinuxContainer Bw Dk) : M σ Bw Dk Unit :=
  fun w => .ok () { w with c := f w.c }

/-- A read of the host. -/
def read (f : σ → α) : M σ Bw Dk α := fun w => .ok (f w.host) w

/-- A call that changes the host and cannot fail. -/
def effect (f : σ → σ) : M σ Bw Dk Unit := fun w => .ok () { w with host := f w.host }

/-- A call whose error is returned: its effect on the host stays either way. -/
def call (f : σ → σ × Option GoError) : M σ Bw Dk Unit := fun w =>
  match f w.host with
  | (s, none) => .ok () { w with host := s }
  | (s, some e) => .error e { w with host := s }

/-- A call whose error is ignored, as Go does with a result it does not look at. -/
def callIgnoring (f : σ → σ × Option GoError) : M σ Bw Dk Unit :=
  fun w => .ok () { w with host := (f w.host).1 }

/-- A call that returns a value or an error. -/
def ask (f : σ → σ × Except GoError α) : M σ Bw Dk α := fun w =>
  match f w.host with
  | (s, .ok a) => .ok a { w with host := s }
  | (s, .error e) => .error e { w with host := s }

/-- A read of the host that may fail. -/
def readE (f : σ → Except GoError α) : M σ Bw Dk α := fun w =>
  match f w.host with
  | .ok a => .ok a w
  | .error e => .error e w

/-- `return err`. -/
def fail (e : GoError) : M σ Bw Dk α := fun w => .error e w

/-- A composite that succeeds: its first part succeeded, and the rest from where it left. -/
theorem bind_ok {x : M σ Bw Dk α} {f : α → M σ Bw Dk β} {w w' : World σ Bw Dk} {b : β} :
    (x >>= f) w = .ok b w' ↔ ∃ a w1, x w = .ok a w1 ∧ f a w1 = .ok b w' := by
  show EStateM.bind x f w = _ ↔ _
  unfold EStateM.bind
  rcases x w with ⟨a, w1⟩ | ⟨e, w1⟩
  · exact ⟨fun hf => ⟨a, w1, rfl, hf⟩, fun ⟨_, _, he, hf⟩ => by cases he; exact hf⟩
  · exact ⟨fun hf => (by cases hf), fun ⟨_, _, he, _⟩ => by cases he⟩

/-- Running `x` then `f` when `x` succeeds. -/
theorem bind_of_ok {x : M σ Bw Dk α} {f : α → M σ Bw Dk β} {w w1 : World σ Bw Dk} {a : α}
    (hx : x w = .ok a w1) : (x >>= f) w = f a w1 := by
  show EStateM.bind x f w = _
  unfold EStateM.bind
  rw [hx]

/-- A failure of `x` is the failure of `x` then `f`. -/
theorem bind_of_error {x : M σ Bw Dk α} {f : α → M σ Bw Dk β} {w w1 : World σ Bw Dk} {e : GoError}
    (hx : x w = .error e w1) : (x >>= f) w = .error e w1 := by
  show EStateM.bind x f w = _
  unfold EStateM.bind
  rw [hx]

@[simp] theorem getC_apply (w : World σ Bw Dk) : (getC : M σ Bw Dk _) w = .ok w.c w := rfl

@[simp] theorem modifyC_apply (f : LinuxContainer Bw Dk → LinuxContainer Bw Dk)
    (w : World σ Bw Dk) : modifyC f w = .ok () { w with c := f w.c } := rfl

@[simp] theorem read_apply (f : σ → α) (w : World σ Bw Dk) :
    (read f : M σ Bw Dk α) w = .ok (f w.host) w := rfl

@[simp] theorem effect_apply (f : σ → σ) (w : World σ Bw Dk) :
    (effect f : M σ Bw Dk Unit) w = .ok () { w with host := f w.host } := rfl

@[simp] theorem callIgnoring_apply (f : σ → σ × Option GoError) (w : World σ Bw Dk) :
    (callIgnoring f : M σ Bw Dk Unit) w = .ok () { w with host := (f w.host).1 } := rfl

@[simp] theorem pure_apply (a : α) (w : World σ Bw Dk) : (pure a : M σ Bw Dk α) w = .ok a w := rfl

/-- A collaborator's call that returns no error changes only the host. -/
theorem call_of_ok {f : σ → σ × Option GoError} {w : World σ Bw Dk} (h : (f w.host).2 = none) :
    (call f : M σ Bw Dk Unit) w = .ok () { w with host := (f w.host).1 } := by
  unfold call
  rcases hf : f w.host with ⟨s, _ | e⟩
  · rfl
  · rw [hf] at h; cases h

/-- A collaborator's call succeeds exactly when it returns no error, and then changes only the
host. -/
theorem call_ok {f : σ → σ × Option GoError} {w w' : World σ Bw Dk} {u : Unit} :
    (call f : M σ Bw Dk Unit) w = .ok u w' ↔
      (f w.host).2 = none ∧ w' = { w with host := (f w.host).1 } := by
  unfold call
  rcases f w.host with ⟨s, _ | e⟩ <;> simp [eq_comm]

/-- A collaborator's query succeeds exactly when it answers, and then changes only the host. -/
theorem ask_ok {f : σ → σ × Except GoError α} {w w' : World σ Bw Dk} {a : α} :
    (ask f : M σ Bw Dk α) w = .ok a w' ↔
      (f w.host).2 = .ok a ∧ w' = { w with host := (f w.host).1 } := by
  unfold ask
  rcases f w.host with ⟨s, a' | e⟩ <;> simp [eq_comm]

/-- A read of the host succeeds exactly when the host answers, and changes nothing. -/
theorem readE_ok {f : σ → Except GoError α} {w w' : World σ Bw Dk} {a : α} :
    (readE f : M σ Bw Dk α) w = .ok a w' ↔ f w.host = .ok a ∧ w' = w := by
  unfold readE
  rcases f w.host with e | a' <;> simp [eq_comm]

end Primitives

/-! ## Operations -/

/-- The texts the operations name: cgroup subsystems and files, scripts and variables. -/
def memory : GoString := GoString.ofString "memory"
def memoryLimitInBytes : GoString := GoString.ofString "memory.limit_in_bytes"
def memoryMemswLimitInBytes : GoString := GoString.ofString "memory.memsw.limit_in_bytes"
def cpu : GoString := GoString.ofString "cpu"
def cpuShares : GoString := GoString.ofString "cpu.shares"
def netSh : GoString := GoString.ofString "net.sh"
def pathVar : GoString := GoString.ofString "PATH"

/-- `UndefinedPropertyError{key}`, by its text. -/
def undefinedPropertyError (key : GoString) : GoError :=
  .text (GoString.ofString "property does not exist: " ++ key)

/-- `strconv.ParseUint(s, 10, 0)` as the `Current…Limits` methods call it, its error a
`*NumError`. -/
def parseUintE (s : GoString) : Except GoError UInt64 :=
  (Strconv.parseUint s).mapError (.numError "ParseUint" s)

/-- `wshdPid`: `Fscanf` of `%d` from `run/wshd.pid` under the container's path; opening and
reading the file is the host's. Reference: `src/unnamed/part_000:521`. -/
def wshdPid {Bw Dk : Type} (readFile : GoString → Except GoError GoString)
    (c : LinuxContainer Bw Dk) : Except GoError Int := do
  let pidPath := Path.join [c.path, GoString.ofString "run", GoString.ofString "wshd.pid"]
  let pidFile ← readFile pidPath
  Fmt.fscanfInt pidFile

section Operations

variable {σ Bw Dk : Type} (h : Host σ Bw Dk)

/-- `setState`. -/
def setState (state : State) : M σ Bw Dk Unit := modifyC fun c => { c with state := state }

/-- `registerEvent`. -/
def registerEvent (event : GoString) : M σ Bw Dk Unit :=
  modifyC fun c => { c with events := c.events ++ [event] }

/-- `startOomNotifier`: nothing when a notifier is set; else set one, `bin/oom` on the memory
cgroup, and start it. The notifier is set before it is started, so it stays set when the start
fails. (The goroutine that waits for it is the event `registerEvent "out of memory"` and a
`Stop`, which callers may run.) -/
def startOomNotifier : M σ Bw Dk Unit := do
  let c ← getC
  match c.oomNotifier with
  | some _ => pure ()
  | none =>
    let memoryPath ← read (h.subsystemPath memory)
    let oom : Command :=
      ⟨[c.path, GoString.ofString "bin", GoString.ofString "oom"], [memoryPath], []⟩
    modifyC fun c => { c with oomNotifier := some oom }
    call (h.start oom)

/-- `stopOomNotifier`: kill the notifier if one is set. -/
def stopOomNotifier : M σ Bw Dk Unit := do
  let c ← getC
  match c.oomNotifier with
  | some oom => effect (h.kill oom)
  | none => pure ()

/-- `LimitBandwidth`. -/
def limitBandwidth (limits : Bw) : M σ Bw Dk Unit := do
  call (h.bandwidthSetLimits limits)
  modifyC fun c => { c with currentBandwidthLimits := some limits }

/-- `CurrentBandwidthLimits`: the last limits set, or the zero value. -/
def currentBandwidthLimits [Inhabited Bw] : M σ Bw Dk Bw := do
  let c ← getC
  pure (c.currentBandwidthLimits.getD default)

/-- `LimitDisk`. -/
def limitDisk (limits : Dk) : M σ Bw Dk Unit := do
  call (h.quotaSetLimits limits)
  modifyC fun c => { c with currentDiskLimits := some limits }

/-- `LimitMemory`: the oom notifier, then `memory.limit_in_bytes`, `memory.memsw.limit_in_bytes`
and `memory.limit_in_bytes` again, only the last write checked. -/
def limitMemory (limits : MemoryLimits) : M σ Bw Dk Unit := do
  startOomNotifier h
  let limit := formatUint limits.limitInBytes.toNat
  callIgnoring (h.cgroupsSet memory memoryLimitInBytes limit)
  callIgnoring (h.cgroupsSet memory memoryMemswLimitInBytes limit)
  call (h.cgroupsSet memory memoryLimitInBytes limit)
  modifyC fun c => { c with currentMemoryLimits := some limits }

/-- `CurrentMemoryLimits`: the cgroup's `memory.limit_in_bytes`, parsed. -/
def currentMemoryLimits : M σ Bw Dk MemoryLimits := do
  let limitInBytes ← readE (h.cgroupsGet memory memoryLimitInBytes)
  let n ← readE fun _ => parseUintE limitInBytes
  pure ⟨n⟩

/-- `LimitCPU`. -/
def limitCPU (limits : CPULimits) : M σ Bw Dk Unit := do
  call (h.cgroupsSet cpu cpuShares (formatUint limits.limitInShares.toNat))
  modifyC fun c => { c with currentCPULimits := some limits }

/-- `CurrentCPULimits`: the cgroup's `cpu.shares`, parsed. -/
def currentCPULimits : M σ Bw Dk CPULimits := do
  let shares ← readE (h.cgroupsGet cpu cpuShares)
  let n ← readE fun _ => parseUintE shares
  pure ⟨n⟩

/-- The host port of `NetIn`: the one given, or one acquired from the pool and added to the
container's resources when it is 0. -/
def acquireHostPort (hostPort : UInt32) : M σ Bw Dk UInt32 :=
  if hostPort = 0 then do
    let p ← ask h.acquirePort
    effect (h.addPort p)
    pure p
  else pure hostPort

/-- `NetIn`: run `net.sh in` with the two ports (the container port defaults to the host port)
and record the mapping. -/
def netIn (hostPort containerPort : UInt32) : M σ Bw Dk (UInt32 × UInt32) := do
  let hostPort ← acquireHostPort h hostPort
  let containerPort := if containerPort = 0 then hostPort else containerPort
  let c ← getC
  let path ← read (h.getenv pathVar)
  call (h.run ⟨[c.path, netSh], [GoString.ofString "in"],
    [GoString.ofString "HOST_PORT=" ++ formatUint hostPort.toNat,
      GoString.ofString "CONTAINER_PORT=" ++ formatUint containerPort.toNat,
      GoString.ofString "PATH=" ++ path]⟩)
  modifyC fun c => { c with netIns := c.netIns ++ [⟨hostPort, containerPort⟩] }
  pure (hostPort, containerPort)

/-- The environment of `net.sh out`: a port, or else a network, must be given. -/
def netOutEnv (network : GoString) (port : UInt32) (path : GoString) :
    Except GoError (List GoString) :=
  if port ≠ 0 then
    .ok [GoString.ofString "NETWORK=" ++ network,
      GoString.ofString "PORT=" ++ formatUint port.toNat, GoString.ofString "PATH=" ++ path]
  else if network = [] then
    .error (.text (GoString.ofString "network and/or port must be provided"))
  else .ok [GoString.ofString "NETWORK=" ++ network, GoString.ofString "PORT=",
    GoString.ofString "PATH=" ++ path]

/-- `NetOut`: run `net.sh out` and record the rule. -/
def netOut (network : GoString) (port : UInt32) : M σ Bw Dk Unit := do
  let c ← getC
  let path ← read (h.getenv pathVar)
  let env ← readE fun _ => netOutEnv network port path
  call (h.run ⟨[c.path, netSh], [GoString.ofString "out"], env⟩)
  modifyC fun c => { c with netOuts := c.netOuts ++ [⟨network, port⟩] }

/-- `Start`: run `start.sh`, read the daemon's PID, erect the network fence, and become
active. -/
def start : M σ Bw Dk Unit := do
  let c ← getC
  let path ← read (h.getenv pathVar)
  call (h.run ⟨[c.path, GoString.ofString "start.sh"], [],
    [GoString.ofString "id=" ++ c.id, GoString.ofString "PATH=" ++ path]⟩)
  let pid ← readE fun s => wshdPid (h.readFile · s) c
  call (h.erect pid)
  setState stateActive

/-- `Stop`: run `stop.sh` (with `-w 0` to kill), stop the oom notifier, and become stopped. -/
def stop (kill : Bool) : M σ Bw Dk Unit := do
  let c ← getC
  call (h.run ⟨[c.path, GoString.ofString "stop.sh"],
    if kill then [GoString.ofString "-w", GoString.ofString "0"] else [], []⟩)
  stopOomNotifier h
  setState stateStopped

/-- `GetProperty`. -/
def getProperty (key : GoString) : M σ Bw Dk GoString := do
  let c ← getC
  match c.properties.lookup key with
  | some value => pure value
  | none => fail (undefinedPropertyError key)

/-- `SetProperty`: the map's entry for `key` becomes `value`. -/
def setProperty (key value : GoString) : M σ Bw Dk Unit :=
  modifyC fun c => { c with properties := (key, value) :: c.properties.filter (·.1 ≠ key) }

/-- `RemoveProperty`: an error when the key is absent, else the entry goes. -/
def removeProperty (key : GoString) : M σ Bw Dk Unit := do
  let c ← getC
  match c.properties.lookup key with
  | some _ => modifyC fun c => { c with properties := c.properties.filter (·.1 ≠ key) }
  | none => fail (undefinedPropertyError key)

/-- The `ContainerSnapshot` literal of `Snapshot`, before the network fence is added. -/
def LinuxContainer.toSnapshot (c : LinuxContainer Bw Dk) (processes : List UInt32)
    (r : Resources) : ContainerSnapshot Bw Dk :=
  ⟨c.id, c.handle, c.graceTime, c.state, c.events,
    ⟨c.currentBandwidthLimits, c.currentCPULimits, c.currentDiskLimits, c.currentMemoryLimits⟩,
    ⟨r.userUID, r.rootUID, r.ports, []⟩, c.netIns, c.netOuts, processes, c.properties, c.envvars⟩

/-- `Snapshot`: the snapshot of the container, with the fence's JSON, written out. Returns the
snapshot it writes. -/
def snapshot : M σ Bw Dk (ContainerSnapshot Bw Dk) := do
  let c ← getC
  let processes ← read h.activeProcesses
  let r ← read h.resources
  let network ← readE h.networkJSON
  let s := c.toSnapshot processes r
  let s := { s with resources := { s.resources with network := network } }
  call (h.encode s)
  pure s

/-- `Restore`: the state, the environment and the events of the snapshot; its memory limit,
when it has one; its processes; the network rules (`net.sh setup`), its port mappings and its
allowed traffic, each run again. -/
def restore (s : ContainerSnapshot Bw Dk) : M σ Bw Dk Unit := do
  setState s.state
  modifyC fun c => { c with envvars := s.envVars }
  s.events.forM registerEvent
  s.limits.memory.forM (limitMemory h)
  s.processes.forM fun p => effect (h.restoreProcess p)
  let c ← getC
  call (h.run ⟨[c.path, netSh], [GoString.ofString "setup"], []⟩)
  s.netIns.forM fun n => do let _ ← netIn h n.hostPort n.containerPort
  s.netOuts.forM fun o => netOut h o.network o.port

end Operations

end LinuxBackend

end GardenLinux
