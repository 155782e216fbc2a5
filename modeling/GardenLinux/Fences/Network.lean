import GardenLinux.Go.Net
import GardenLinux.Go.Json

/-!
# The network fence

A container's network is an `Allocation` of the fence builder `f`: a subnet and an address from
the subnet pool, the names of the container's and the host's ends of its virtual interface pair,
whether the subnet is shared, and the name of the bridge. `Build` allocates one for a new
container; `MarshalJSON` writes it into the container's snapshot as a `FlatFence`, the same six
fields as text, and `Rebuild` reads it back after a restart and re-registers the subnet and the
address with the pool (`Recover`).

The pool's code is not part of the repository's files. The fence sees it through the answers of
`Subnets` and leaves a log of the calls it makes (`SubnetsCall`), so that what the fence asks of
the pool is a statement about that log.

Three results:

* `build_allocate_spec`: `Build` asks the pool for what the network spec names, as its comment
  says: any subnet and address for no spec; for a network in CIDR notation, that network and the
  address it names, or any address when it names the network's own; a bare address is a `/30`;
* `rebuild_marshalJSON`: whatever the subnet, the address and the names (valid UTF-8), a
  marshalled allocation is rebuilt with one `Recover` of its subnet and address, and, when that
  succeeds, as the same allocation, its network address masked as `ParseCIDR` returns it. Names
  that are not valid UTF-8 come back with U+FFFD for each stray byte, so an allocation survives a
  restart exactly when its names are valid (`rebuild_marshalJSON_iff_valid`), and one that
  `Build` returned under a valid prefix exactly when `Build` cut the ID between characters
  (`build_rebuild_iff_valid`);
* `ifaceName`'s bound: `Build` keeps the names of a container's interfaces within
  `len(prefix) + 16` bytes, and within the Linux limit of 15 only when it does not cut the
  container's ID; when it cuts, the names are 16 bytes long;
* `build_names_eq_iff`: under one configuration, two allocations share a bridge exactly when
  their subnets have the same address, and share interface names exactly when `ifaceName` keeps
  the same bytes of their IDs.
-/

namespace GardenLinux

namespace Network

open Net Json Strconv

/-! ## The subnet pool, as the fence calls it -/

/-- `subnets.SubnetSelector`: any free subnet of the pool, or the one given. -/
inductive SubnetSelector
  | dynamic
  | static (ipn : IPNet)
  deriving DecidableEq

/-- `subnets.IPSelector`: any free address of the subnet, or the one given. -/
inductive IPSelector
  | dynamic
  | static (ip : IP)
  deriving DecidableEq

/-- A call the fence makes on its pool. -/
inductive SubnetsCall
  | allocate (s : SubnetSelector) (i : IPSelector)
  | recover (ipn : IPNet) (ip : Option IP)
  deriving DecidableEq

/-- The pool's answer to each call: a subnet and an address, or the error `Recover` returns. -/
structure Subnets where
  allocate : SubnetSelector → IPSelector → Except GoError (IPNet × IP)
  recover : IPNet → Option IP → Option GoError

/-- The errors `Build` and `Rebuild` return: `Unmarshal`'s, `ParseCIDR`'s, the pool's, and the
panic of a slice expression out of range. -/
inductive FenceError
  | json (e : Json.Error)
  | parseCIDR (e : ParseError)
  | subnets (e : GoError)
  | slicePanic
  deriving DecidableEq

/-! ## Allocations and their JSON -/

/-- An allocation, with the fields the modelled functions read. Its `fence` pointer (the MTU,
external address and binary path `Erect` and `ConfigureProcess` use) is left out. -/
structure Allocation where
  ipNet : IPNet
  containerIP : Option IP
  containerIfcName : GoString
  hostIfcName : GoString
  subnetShareable : Bool
  bridgeIfcName : GoString
  deriving DecidableEq

/-- `FlatFence`, with Go's zero value as its defaults. -/
structure FlatFence where
  ipn : GoString := []
  containerIP : GoString := []
  containerIfcName : GoString := []
  hostIfcName : GoString := []
  subnetShareable : Bool := false
  bridgeIfcName : GoString := []
  deriving DecidableEq, Repr

/-- The fields of `FlatFence`, in the order the struct declares them. -/
inductive FlatFenceField
  | ipn
  | containerIP
  | containerIfcName
  | hostIfcName
  | subnetShareable
  | bridgeIfcName
  deriving DecidableEq, Repr

/-- Each field with its JSON name, the Go field name. -/
def FlatFence.fields : List (FlatFenceField × GoString) :=
  [(.ipn, GoString.ofString "Ipn"), (.containerIP, GoString.ofString "ContainerIP"),
    (.containerIfcName, GoString.ofString "ContainerIfcName"),
    (.hostIfcName, GoString.ofString "HostIfcName"),
    (.subnetShareable, GoString.ofString "SubnetShareable"),
    (.bridgeIfcName, GoString.ofString "BridgeIfcName")]

/-- `json.Marshal(ff)`. Its error is always nil for a struct of strings and a bool. -/
def FlatFence.marshal (ff : FlatFence) : GoString :=
  encodeStruct [(GoString.ofString "Ipn", encodeString ff.ipn),
    (GoString.ofString "ContainerIP", encodeString ff.containerIP),
    (GoString.ofString "ContainerIfcName", encodeString ff.containerIfcName),
    (GoString.ofString "HostIfcName", encodeString ff.hostIfcName),
    (GoString.ofString "SubnetShareable", encodeBool ff.subnetShareable),
    (GoString.ofString "BridgeIfcName", encodeString ff.bridgeIfcName)]

/-- Storing a decoded value into one field. -/
def FlatFence.store (ff : FlatFence) : FlatFenceField → Value → FlatFence × Option Json.Error
  | .ipn, v => let r := storeString ff.ipn v; ({ ff with ipn := r.1 }, r.2)
  | .containerIP, v => let r := storeString ff.containerIP v; ({ ff with containerIP := r.1 }, r.2)
  | .containerIfcName, v =>
    let r := storeString ff.containerIfcName v; ({ ff with containerIfcName := r.1 }, r.2)
  | .hostIfcName, v => let r := storeString ff.hostIfcName v; ({ ff with hostIfcName := r.1 }, r.2)
  | .subnetShareable, v =>
    let r := storeBool ff.subnetShareable v; ({ ff with subnetShareable := r.1 }, r.2)
  | .bridgeIfcName, v =>
    let r := storeString ff.bridgeIfcName v; ({ ff with bridgeIfcName := r.1 }, r.2)

/-- One member of the object: stored into the field its key names, skipped when it names none.
The first error is kept, as `decodeState.saveError` keeps it. -/
def FlatFence.member (acc : FlatFence × Option Json.Error) (m : GoString × Value) :
    FlatFence × Option Json.Error :=
  match findField FlatFence.fields m.1 with
  | none => acc
  | some f => let r := acc.1.store f m.2; (r.1, acc.2.or r.2)

/-- Decoding a value into a `FlatFence`: an object member by member; `null` leaves it; any other
value is a type error. -/
def FlatFence.decode (ff : FlatFence) : Value → FlatFence × Option Json.Error
  | .object ms => ms.foldl FlatFence.member (ff, none)
  | .null => (ff, none)
  | v => (ff, some (.unmarshalType v.kind "network.FlatFence"))

/-- `json.Unmarshal(data, &ff)` into a fresh `FlatFence{}`. -/
def unmarshal (data : GoString) : Except Json.Error FlatFence :=
  match parse data with
  | none => .error .syntaxError
  | some v =>
    match FlatFence.decode {} v with
    | (ff, none) => .ok ff
    | (_, some e) => .error e

/-- The `FlatFence` literal `MarshalJSON` builds: the network and the address as `String()`
writes them, the rest as they are. -/
def Allocation.toFlatFence (a : Allocation) : FlatFence :=
  ⟨a.ipNet.toGoString, ipString a.containerIP, a.containerIfcName, a.hostIfcName,
    a.subnetShareable, a.bridgeIfcName⟩

/-- `(*Allocation).MarshalJSON`. -/
def Allocation.marshalJSON (a : Allocation) : GoString := a.toFlatFence.marshal

/-- `(*f).Rebuild`: unmarshal the fence, parse its network, recover the network and the address
with the pool, and rebuild the allocation from the text. Returns the calls made on the pool. -/
def rebuild (sub : Subnets) (rm : GoString) : List SubnetsCall × Except FenceError Allocation :=
  match unmarshal rm with
  | .error e => ([], .error (.json e))
  | .ok ff =>
    match parseCIDR ff.ipn with
    | .error e => ([], .error (.parseCIDR e))
    | .ok (_, ipn) =>
      let ip := parseIP ff.containerIP
      ([.recover ipn ip],
        match sub.recover ipn ip with
        | some e => .error (.subnets e)
        | none => .ok ⟨ipn, ip, ff.containerIfcName, ff.hostIfcName, ff.subnetShareable,
            ff.bridgeIfcName⟩)

/-! ## Reading back a marshalled fence -/

/-- The key `Ipn` finds the field `Ipn`, by its exact name. -/
theorem findField_ipn : findField FlatFence.fields (GoString.ofString "Ipn") = some .ipn := by
  decide

/-- The key `ContainerIP` finds the field `ContainerIP`, by its exact name. -/
theorem findField_containerIP :
    findField FlatFence.fields (GoString.ofString "ContainerIP") = some .containerIP := by
  decide

/-- The key `ContainerIfcName` finds the field `ContainerIfcName`, by its exact name. -/
theorem findField_containerIfcName :
    findField FlatFence.fields (GoString.ofString "ContainerIfcName") = some .containerIfcName := by
  decide

/-- The key `HostIfcName` finds the field `HostIfcName`, by its exact name. -/
theorem findField_hostIfcName :
    findField FlatFence.fields (GoString.ofString "HostIfcName") = some .hostIfcName := by
  decide

/-- The key `SubnetShareable` finds the field `SubnetShareable`, by its exact name. -/
theorem findField_subnetShareable :
    findField FlatFence.fields (GoString.ofString "SubnetShareable") = some .subnetShareable := by
  decide

/-- The key `BridgeIfcName` finds the field `BridgeIfcName`, by its exact name. -/
theorem findField_bridgeIfcName :
    findField FlatFence.fields (GoString.ofString "BridgeIfcName") = some .bridgeIfcName := by
  decide

/-- A string field of a marshalled fence, as the struct encoder is given it and as it parses:
its runes encoded again. -/
def stringField (name : String) (s : GoString) : Field :=
  ⟨name, encodeString s, .string (Utf8.reencode s)⟩

/-- A marshalled string field parses back as the string with its runes encoded again. -/
theorem stringField_parses (name : String) (s : GoString) : (stringField name s).Parses :=
  fun fuel rest => parseValue_encodeString fuel s rest

/-- The fence `Unmarshal` reads from `Marshal`'s text: each string's runes encoded again. -/
def FlatFence.reencoded (ff : FlatFence) : FlatFence :=
  ⟨Utf8.reencode ff.ipn, Utf8.reencode ff.containerIP, Utf8.reencode ff.containerIfcName,
    Utf8.reencode ff.hostIfcName, ff.subnetShareable, Utf8.reencode ff.bridgeIfcName⟩

/-- **`Unmarshal` of `Marshal`.** Any `FlatFence` is decoded from its JSON with each string's
runes encoded again: `json.Marshal` writes a byte that starts no valid encoding as `\ufffd`, and
the rest as it is. Reference:
`src/old/system_info/system_info_test.go:641` and `:518`. -/
theorem unmarshal_marshal_reencoded (ff : FlatFence) :
    unmarshal ff.marshal = .ok ff.reencoded := by
  have hp := parse_encodeStruct (stringField "Ipn" ff.ipn)
    [stringField "ContainerIP" ff.containerIP, stringField "ContainerIfcName" ff.containerIfcName,
      stringField "HostIfcName" ff.hostIfcName,
      ⟨"SubnetShareable", encodeBool ff.subnetShareable, .bool ff.subnetShareable⟩,
      stringField "BridgeIfcName" ff.bridgeIfcName]
    (by
      simp only [List.mem_cons, List.mem_singleton, forall_eq_or_imp, forall_eq, List.not_mem_nil,
        false_imp_iff, imp_true_iff, and_true]
      exact ⟨stringField_parses _ _, stringField_parses _ _, stringField_parses _ _,
        stringField_parses _ _, fun fuel s => parseValue_encodeBool fuel _ s,
        stringField_parses _ _⟩)
  rw [FlatFence.marshal, unmarshal]
  erw [hp]
  simp only [List.map_cons, List.map_nil, Field.member, stringField, FlatFence.decode, List.foldl,
    FlatFence.member, findField_ipn, findField_containerIP, findField_containerIfcName,
    findField_hostIfcName, findField_subnetShareable, findField_bridgeIfcName, FlatFence.store,
    storeString, storeBool, Option.or_some, Option.none_or]
  rfl

/-- **`Unmarshal` reads back `Marshal`.** A `FlatFence` whose strings are valid UTF-8 is decoded
from its JSON as itself. Reference: `src/old/system_info/system_info_test.go:448` and `:641`. -/
theorem unmarshal_marshal (ff : FlatFence) (h1 : Utf8.Valid ff.ipn)
    (h2 : Utf8.Valid ff.containerIP) (h3 : Utf8.Valid ff.containerIfcName)
    (h4 : Utf8.Valid ff.hostIfcName) (h5 : Utf8.Valid ff.bridgeIfcName) :
    unmarshal ff.marshal = .ok ff := by
  rw [unmarshal_marshal_reencoded, FlatFence.reencoded, (Utf8.reencode_eq_self_iff _).2 h1,
    (Utf8.reencode_eq_self_iff _).2 h2, (Utf8.reencode_eq_self_iff _).2 h3,
    (Utf8.reencode_eq_self_iff _).2 h4, (Utf8.reencode_eq_self_iff _).2 h5]

/-- **`Rebuild` of `MarshalJSON`.** When the three interface names are valid UTF-8, `Rebuild` of
what `MarshalJSON` wrote makes one call on the pool, `Recover` of the network masked and of the
address; the masked network keeps the address and the prefix length; and when the pool recovers
them, the allocation comes back with its network masked. Reference:
`src/old/system_info/system_info_test.go:518` and `:641`. -/
theorem rebuild_marshalJSON (sub : Subnets) (a : Allocation)
    (hc : Utf8.Valid a.containerIfcName) (hh : Utf8.Valid a.hostIfcName)
    (hb : Utf8.Valid a.bridgeIfcName) :
    (rebuild sub a.marshalJSON).1 = [.recover a.ipNet.masked a.containerIP] ∧
      a.ipNet.masked.networkIP = a.ipNet.networkIP ∧ a.ipNet.masked.ones = a.ipNet.ones ∧
      (sub.recover a.ipNet.masked a.containerIP = none →
        (rebuild sub a.marshalJSON).2 = .ok { a with ipNet := a.ipNet.masked }) := by
  have hu := unmarshal_marshal a.toFlatFence (.of_ascii (ascii_toGoString a.ipNet))
    (.of_ascii (ascii_ipString a.containerIP)) hc hh hb
  refine ⟨?_, IPNet.networkIP_masked _, IPNet.ones_masked _, fun hr => ?_⟩
  all_goals
    rw [rebuild, Allocation.marshalJSON, hu]
    simp only [Allocation.toFlatFence, parseCIDR_toGoString, parseIP_ipString]
  simp only [hr]

/-- The allocation `Build` makes for the container `abc` with the prefix `w` in `10.254.0.4/30`,
its network address written with a host bit set. -/
def sampleAllocation : Allocation :=
  ⟨⟨⟨10, 254, 0, 5⟩, 30, by decide⟩, some ⟨10, 254, 0, 6⟩, GoString.ofString "wabc-1",
    GoString.ofString "wabc-0", false, GoString.ofString "wbr-0afe0004"⟩

/-- `Rebuild` of the marshalled `sampleAllocation` calls `Recover` once, on its masked network. -/
theorem rebuild_marshalJSON_sample :
    Utf8.Valid sampleAllocation.containerIfcName ∧ Utf8.Valid sampleAllocation.hostIfcName ∧
      Utf8.Valid sampleAllocation.bridgeIfcName ∧
      (rebuild ⟨fun _ _ => .error (.text []), fun _ _ => none⟩ sampleAllocation.marshalJSON).1 =
        [.recover sampleAllocation.ipNet.masked sampleAllocation.containerIP] :=
  ⟨⟨_, rfl⟩, ⟨_, rfl⟩, ⟨_, rfl⟩,
    (rebuild_marshalJSON _ sampleAllocation ⟨_, rfl⟩ ⟨_, rfl⟩ ⟨_, rfl⟩).1⟩

/-! ## `Build` -/

/-- `sysconfig.Config`, with the one field `Build` reads. -/
structure Config where
  networkInterfacePrefix : GoString

/-- `suffixIfNeeded`: a spec with no `/` is a `/30`. -/
def suffixIfNeeded (spec : GoString) : GoString :=
  if Strings.contains spec slash then spec else spec ++ GoString.ofString "/30"

/-- `subnets.NetworkIP`, which is not in the repository's files: the network's address, which
`ParseCIDR` has masked. -/
def networkIP (ipn : IPNet) : IP := ipn.ip

/-- `hexIP`: `hex.EncodeToString` of the address's four bytes. -/
def hexIP (ip : IP) : GoString := Hex.encodeToString [ip.b0, ip.b1, ip.b2, ip.b3]

/-- The selectors of a non-empty spec: the network it names, and the address it names when that
is not the network's own. -/
def selectors (spec : GoString) : Except FenceError (SubnetSelector × IPSelector) :=
  match parseCIDR (suffixIfNeeded spec) with
  | .error e => .error (.parseCIDR e)
  | .ok (specifiedIP, ipn) =>
    .ok (.static ipn, if specifiedIP = networkIP ipn then .dynamic else .static specifiedIP)

/-- The part of the container's ID in its interface names: the ID when it is shorter than
`maxIdLen = 14 - len(prefix)`, else its last `maxIdLen` bytes, `containerID[len-maxIdLen:]`,
which panics when `maxIdLen` is negative. -/
def ifaceName (pfx containerID : GoString) : Option GoString :=
  let maxIdLen : Int := 14 - pfx.length
  if (containerID.length : Int) < maxIdLen then some containerID
  else
    let lo : Int := containerID.length - maxIdLen
    if lo ≤ containerID.length then some (containerID.drop lo.toNat) else none

/-- `(*f).Build`: select, allocate, and name the interfaces and the bridge. Returns the calls
made on the pool. -/
def build (sub : Subnets) (spec : GoString) (cfg : Config) (containerID : GoString) :
    List SubnetsCall × Except FenceError Allocation :=
  match (if spec = [] then .ok (.dynamic, .dynamic) else selectors spec) with
  | .error e => ([], .error e)
  | .ok (ss, is) =>
    ([.allocate ss is],
      match sub.allocate ss is with
      | .error e => .error (.subnets e)
      | .ok (subnet, containerIP) =>
        let pfx := cfg.networkInterfacePrefix
        match ifaceName pfx containerID with
        | none => .error .slicePanic
        | some name =>
          .ok ⟨subnet, some containerIP, pfx ++ name ++ GoString.ofString "-1",
            pfx ++ name ++ GoString.ofString "-0", decide (subnet.ones < 30),
            pfx ++ GoString.ofString "br-" ++ hexIP subnet.ip⟩)

/-! ## What `Build` asks of the pool -/

/-- `IPNet.String()` holds a `/`, so `suffixIfNeeded` leaves it. -/
theorem contains_slash_toGoString (n : IPNet) : Strings.contains n.toGoString slash = true := by
  simp [Strings.contains, IPNet.toGoString]

/-- `IP.String()` of an IPv4 address holds no `/`, so `suffixIfNeeded` adds `/30`. -/
theorem contains_slash_ip_toGoString (ip : IP) : Strings.contains ip.toGoString slash = false := by
  rw [Strings.contains, List.any_eq_false]
  intro b hb hs
  rcases forall_mem_toGoString ip b hb with h | h
  · exact (not_digit_sep h).2.2 (of_decide_eq_true hs)
  · rw [of_decide_eq_true hs] at h
    exact absurd h (by decide)

/-- A bare address names the `/30` around it. -/
theorem suffixIfNeeded_ip_toGoString (ip : IP) :
    suffixIfNeeded ip.toGoString = IPNet.toGoString ⟨ip, 30, by decide⟩ := by
  have h30 : GoString.ofString "/30" = slash :: formatUint 30 := by decide
  rw [suffixIfNeeded, if_neg (by rw [contains_slash_ip_toGoString]; decide), IPNet.toGoString, h30]

/-- A spec in CIDR notation selects its network, masked, and its address unless it is the
network's own. -/
theorem selectors_toGoString (n : IPNet) :
    selectors n.toGoString =
      .ok (.static n.masked, if n.ip = n.networkIP then .dynamic else .static n.ip) := by
  rw [selectors, suffixIfNeeded, if_pos (contains_slash_toGoString n), parseCIDR_toGoString]
  rfl

/-- **`Build` asks the pool for what the spec names.** With no spec, for any subnet and any
address. With a spec in CIDR notation, `IPNet.String()` of any network, for that network, masked
as `ParseCIDR` returns it, and for the address the spec names, or for any address when the spec
names the network's own. A bare address names the `/30` around it. Reference:
`src/old/system_info/system_info_test.go:465` and `:507`. -/
theorem build_allocate_spec (sub : Subnets) (cfg : Config) (containerID : GoString) (n : IPNet)
    (ip : IP) :
    (build sub [] cfg containerID).1 = [.allocate .dynamic .dynamic] ∧
      (build sub n.toGoString cfg containerID).1 =
        [.allocate (.static n.masked) (if n.ip = n.networkIP then .dynamic else .static n.ip)] ∧
      (build sub ip.toGoString cfg containerID).1 =
        [.allocate (.static (⟨ip, 30, by decide⟩ : IPNet).masked)
          (if ip = ip.mask 30 then .dynamic else .static ip)] := by
  have hn : ∀ m : IPNet, m.toGoString ≠ [] := fun m => by simp [IPNet.toGoString]
  refine ⟨rfl, ?_, ?_⟩
  · rw [build, if_neg (hn n), selectors_toGoString]
  · have hip : ip.toGoString ≠ [] := by simp [IP.toGoString]
    rw [build, if_neg hip, selectors, suffixIfNeeded_ip_toGoString, parseCIDR_toGoString]
    rfl

/-! ## Interface names -/

/-- `ifaceName` keeps the last `14 - len(prefix)` bytes of the ID, all of a shorter one. -/
theorem ifaceName_eq {pfx : GoString} (hp : pfx.length ≤ 14) (containerID : GoString) :
    ifaceName pfx containerID = some (containerID.drop (containerID.length + pfx.length - 14)) := by
  dsimp only [ifaceName]
  split_ifs with h1 h2
  · rw [Nat.sub_eq_zero_of_le (by omega), List.drop_zero]
  · congr 2; omega
  · omega

/-- The slice expression panics exactly when the prefix leaves no room: `maxIdLen < 0`. -/
theorem ifaceName_eq_none_iff (pfx containerID : GoString) :
    ifaceName pfx containerID = none ↔ 14 < pfx.length := by
  dsimp only [ifaceName]
  split_ifs <;> simp <;> omega

/-- The bytes `ifaceName` keeps: all of an ID shorter than `14 - len(prefix)`, else that many. -/
theorem length_ifaceName {pfx containerID name : GoString}
    (h : ifaceName pfx containerID = some name) :
    name.length = min containerID.length (14 - pfx.length) ∧ pfx.length ≤ 14 := by
  have hp : pfx.length ≤ 14 := by
    by_contra hc
    rw [(ifaceName_eq_none_iff pfx containerID).2 (by omega)] at h
    cases h
  rw [ifaceName_eq hp, Option.some.injEq] at h
  subst h
  simp only [List.length_drop]
  omega

/-- What a successful `Build` returns: the pool's subnet and address, the interface names of the
ID's last bytes, and the bridge named by the subnet's address. -/
theorem build_ok {sub : Subnets} {spec : GoString} {cfg : Config} {containerID : GoString}
    {a : Allocation} (h : (build sub spec cfg containerID).2 = .ok a) :
    ∃ ss is name, sub.allocate ss is = .ok (a.ipNet, (a.containerIP.getD ⟨0, 0, 0, 0⟩)) ∧
      a.containerIP.isSome ∧ ifaceName cfg.networkInterfacePrefix containerID = some name ∧
      a.containerIfcName = cfg.networkInterfacePrefix ++ name ++ GoString.ofString "-1" ∧
      a.hostIfcName = cfg.networkInterfacePrefix ++ name ++ GoString.ofString "-0" ∧
      a.subnetShareable = decide (a.ipNet.ones < 30) ∧
      a.bridgeIfcName = cfg.networkInterfacePrefix ++ GoString.ofString "br-" ++ hexIP a.ipNet.ip := by
  unfold build at h
  split at h
  · cases h
  · rename_i ss is _
    simp only at h
    split at h
    · cases h
    · rename_i subnet ip hal
      split at h
      · cases h
      · rename_i name hn
        cases h
        exact ⟨ss, is, name, hal, rfl, hn, rfl, rfl, rfl, rfl⟩

/-- **The length of a container's interface names.** `Build` names both ends of the pair
`prefix + ifaceName + "-1"` and `prefix + ifaceName + "-0"`, so each name is
`len(prefix) + min(len(containerID), 14 - len(prefix)) + 2` bytes long: at most 16, and within
the Linux limit of 15 (`IFNAMSIZ - 1`) exactly when the ID is shorter than `14 - len(prefix)`
and is not cut. Reference: `src/old/system_info/system_info_test.go:465`. -/
theorem build_ifcName_length {sub : Subnets} {spec : GoString} {cfg : Config}
    {containerID : GoString} {a : Allocation} (h : (build sub spec cfg containerID).2 = .ok a) :
    a.containerIfcName.length = a.hostIfcName.length ∧
      a.containerIfcName.length =
        cfg.networkInterfacePrefix.length + min containerID.length (14 - cfg.networkInterfacePrefix.length) + 2 ∧
      a.containerIfcName.length ≤ 16 ∧
      (a.containerIfcName.length ≤ 15 ↔ containerID.length + cfg.networkInterfacePrefix.length < 14) := by
  obtain ⟨-, -, name, -, -, hn, hc, hh, -⟩ := build_ok h
  obtain ⟨hlen, hp⟩ := length_ifaceName hn
  have h1 : (GoString.ofString "-1").length = 2 := by decide
  have h0 : (GoString.ofString "-0").length = 2 := by decide
  simp only [hc, hh, List.length_append, h1, h0, hlen, Nat.min_def, true_and]
  split_ifs <;> omega

/-- `Build` under the prefix `w` for the ID `abc`: names of five bytes, within the limit. -/
theorem build_ifcName_length_sample :
    (build ⟨fun _ _ => .ok (sampleAllocation.ipNet, ⟨10, 254, 0, 6⟩), fun _ _ => none⟩ []
      ⟨GoString.ofString "w"⟩ (GoString.ofString "abc")).2 =
        .ok { sampleAllocation with bridgeIfcName := GoString.ofString "wbr-" ++ hexIP ⟨10, 254, 0, 5⟩ } ∧
      (sampleAllocation.containerIfcName.length ≤ 15 ↔ 3 + 1 < 14) := by
  have h : (build ⟨fun _ _ => .ok (sampleAllocation.ipNet, ⟨10, 254, 0, 6⟩), fun _ _ => none⟩ []
      ⟨GoString.ofString "w"⟩ (GoString.ofString "abc")).2 =
        .ok { sampleAllocation with bridgeIfcName := GoString.ofString "wbr-" ++ hexIP ⟨10, 254, 0, 5⟩ } := by
    have hn : ifaceName (GoString.ofString "w") (GoString.ofString "abc") =
        some (GoString.ofString "abc") := by decide
    simp only [build, ite_true, hn]
    rfl
  exact ⟨h, (build_ifcName_length h).2.2.2⟩

/-- The failing input of the bound: with the prefix `w` and a 13-byte ID, whatever the pool
allocates, `Build` cuts nothing (`maxIdLen` is 13) and names both interfaces with 16 bytes, one
more than Linux accepts. -/
theorem build_names_exceed_ifnamsiz (subnet : IPNet) (ip : IP) :
    ((build ⟨fun _ _ => .ok (subnet, ip), fun _ _ => none⟩ [] ⟨GoString.ofString "w"⟩
      (GoString.ofString "0123456789abc")).2.map
        fun a => (a.containerIfcName.length, a.hostIfcName.length)) = .ok (16, 16) := by
  have hn : ifaceName (GoString.ofString "w") (GoString.ofString "0123456789abc") =
      some (GoString.ofString "0123456789abc") := by decide
  have hw : (GoString.ofString "w").length = 1 := by decide
  have hid : (GoString.ofString "0123456789abc").length = 13 := by decide
  have h1 : (GoString.ofString "-1").length = 2 := by decide
  have h0 : (GoString.ofString "-0").length = 2 := by decide
  simp only [build, ite_true, hn, Except.map, List.length_append, hw, hid, h1, h0]

/-! ## Which names two containers share -/

/-- `hexIP` writes each of the four bytes as its own two digits. -/
theorem hexIP_injective : Function.Injective hexIP := by
  rintro ⟨a0, a1, a2, a3⟩ ⟨c0, c1, c2, c3⟩ h
  have h' := Hex.encodeToString_injective h
  simp only [List.cons.injEq, and_true] at h'
  obtain ⟨rfl, rfl, rfl, rfl⟩ := h'
  rfl

/-- **The names `Build` gives identify the subnet and the ID.** Under one configuration, two
allocations have the same bridge exactly when their subnets have the same address: the bridge is
named by `hexIP` of it, and `Dismantle` takes it down by that name when the pool releases the
subnet. The mask's length is not in the name, so two subnets at one address with different masks
share a bridge. Their host interfaces have the same name exactly when `ifaceName` keeps the same
bytes of the two IDs, as it does for two long IDs that end alike. Reference:
`src/old/system_info/system_info_test.go:465` and `:626`. -/
theorem build_names_eq_iff {sub₁ sub₂ : Subnets} {spec₁ spec₂ : GoString} {cfg : Config}
    {id₁ id₂ : GoString} {a₁ a₂ : Allocation} (h₁ : (build sub₁ spec₁ cfg id₁).2 = .ok a₁)
    (h₂ : (build sub₂ spec₂ cfg id₂).2 = .ok a₂) :
    (a₁.bridgeIfcName = a₂.bridgeIfcName ↔ a₁.ipNet.ip = a₂.ipNet.ip) ∧
      (a₁.hostIfcName = a₂.hostIfcName ↔
        ifaceName cfg.networkInterfacePrefix id₁ = ifaceName cfg.networkInterfacePrefix id₂) := by
  obtain ⟨-, -, n₁, -, -, hn₁, -, hh₁, -, hb₁⟩ := build_ok h₁
  obtain ⟨-, -, n₂, -, -, hn₂, -, hh₂, -, hb₂⟩ := build_ok h₂
  rw [hb₁, hb₂, hh₁, hh₂, hn₁, hn₂, List.append_cancel_left_eq, List.append_cancel_right_eq,
    List.append_cancel_left_eq, Option.some.injEq]
  exact ⟨hexIP_injective.eq_iff, Iff.rfl⟩

/-- A pool that hands out `10.254.0.5/30` and `10.254.0.6` whatever is asked. -/
def sampleSubnets : Subnets := ⟨fun _ _ => .ok (sampleAllocation.ipNet, ⟨10, 254, 0, 6⟩), fun _ _ => none⟩

/-- What `Build` returns from `sampleSubnets` under the prefix `w`, for an ID of three bytes. -/
def sampleBuilt (containerID : String) : Allocation :=
  ⟨sampleAllocation.ipNet, sampleAllocation.containerIP,
    GoString.ofString ("w" ++ containerID ++ "-1"), GoString.ofString ("w" ++ containerID ++ "-0"),
    false, GoString.ofString "wbr-0afe0005"⟩

/-- `Build` from `sampleSubnets` for the IDs `abc` and `xyz`: one bridge for the one subnet, two
host interfaces for the two IDs. -/
theorem build_names_eq_iff_sample :
    (build sampleSubnets [] ⟨GoString.ofString "w"⟩ (GoString.ofString "abc")).2 =
        .ok (sampleBuilt "abc") ∧
      (build sampleSubnets [] ⟨GoString.ofString "w"⟩ (GoString.ofString "xyz")).2 =
        .ok (sampleBuilt "xyz") ∧
      (((sampleBuilt "abc").bridgeIfcName = (sampleBuilt "xyz").bridgeIfcName ↔
          (sampleBuilt "abc").ipNet.ip = (sampleBuilt "xyz").ipNet.ip) ∧
        ((sampleBuilt "abc").hostIfcName = (sampleBuilt "xyz").hostIfcName ↔
          ifaceName (GoString.ofString "w") (GoString.ofString "abc") =
            ifaceName (GoString.ofString "w") (GoString.ofString "xyz"))) := by
  have h₁ : (build sampleSubnets [] ⟨GoString.ofString "w"⟩ (GoString.ofString "abc")).2 =
      .ok (sampleBuilt "abc") := by
    have hn : ifaceName (GoString.ofString "w") (GoString.ofString "abc") =
        some (GoString.ofString "abc") := by decide
    simp only [build, ite_true, hn]
    rfl
  have h₂ : (build sampleSubnets [] ⟨GoString.ofString "w"⟩ (GoString.ofString "xyz")).2 =
      .ok (sampleBuilt "xyz") := by
    have hn : ifaceName (GoString.ofString "w") (GoString.ofString "xyz") =
        some (GoString.ofString "xyz") := by decide
    simp only [build, ite_true, hn]
    rfl
  exact ⟨h₁, h₂, build_names_eq_iff h₁ h₂⟩

/-! ## A fence across a restart -/

/-- What `Rebuild` makes of what `MarshalJSON` wrote, whatever the names hold: one `Recover`,
and the allocation with its network masked and each name's runes encoded again. -/
theorem rebuild_marshalJSON_eq (sub : Subnets) (a : Allocation) :
    rebuild sub a.marshalJSON = ([.recover a.ipNet.masked a.containerIP],
      match sub.recover a.ipNet.masked a.containerIP with
      | some e => .error (.subnets e)
      | none => .ok ⟨a.ipNet.masked, a.containerIP, Utf8.reencode a.containerIfcName,
          Utf8.reencode a.hostIfcName, a.subnetShareable, Utf8.reencode a.bridgeIfcName⟩) := by
  rw [rebuild, Allocation.marshalJSON, unmarshal_marshal_reencoded]
  simp only [FlatFence.reencoded, Allocation.toFlatFence,
    (Utf8.reencode_eq_self_iff _).2 (.of_ascii (ascii_toGoString a.ipNet)),
    (Utf8.reencode_eq_self_iff _).2 (.of_ascii (ascii_ipString a.containerIP)),
    parseCIDR_toGoString, parseIP_ipString]

/-- **A fence survives a restart exactly when its names are valid UTF-8.** When the pool recovers
the subnet and the address, `Rebuild` of what `MarshalJSON` wrote returns the allocation, its
network masked, if and only if its three interface names are valid UTF-8: `json.Marshal` writes
each byte of a name that starts no valid encoding as `\ufffd`, and that name comes back with
U+FFFD in the byte's place. Reference: `src/old/system_info/system_info_test.go:518` and `:641`. -/
theorem rebuild_marshalJSON_iff_valid {sub : Subnets} {a : Allocation}
    (hr : sub.recover a.ipNet.masked a.containerIP = none) :
    (rebuild sub a.marshalJSON).2 = .ok { a with ipNet := a.ipNet.masked } ↔
      Utf8.Valid a.containerIfcName ∧ Utf8.Valid a.hostIfcName ∧ Utf8.Valid a.bridgeIfcName := by
  rw [rebuild_marshalJSON_eq, hr]
  simp only [Except.ok.injEq, Allocation.mk.injEq, true_and, Utf8.reencode_eq_self_iff]

/-- `sampleAllocation`, whose names are ASCII, survives a restart on `sampleSubnets`. -/
theorem rebuild_marshalJSON_iff_valid_sample :
    sampleSubnets.recover sampleAllocation.ipNet.masked sampleAllocation.containerIP = none ∧
      ((rebuild sampleSubnets sampleAllocation.marshalJSON).2 =
          .ok { sampleAllocation with ipNet := sampleAllocation.ipNet.masked } ↔
        Utf8.Valid sampleAllocation.containerIfcName ∧ Utf8.Valid sampleAllocation.hostIfcName ∧
          Utf8.Valid sampleAllocation.bridgeIfcName) :=
  ⟨rfl, rebuild_marshalJSON_iff_valid rfl⟩

/-- `hexIP` writes hex digits, which are ASCII. -/
theorem valid_hexIP (ip : IP) : Utf8.Valid (hexIP ip) :=
  .of_ascii fun _ hb => Hex.toNat_lt_of_mem_encodeToString hb

/-- **What `Build` names survives a restart exactly when the ID is cut at a character.** Under a
prefix that is valid UTF-8, the allocation a `Build` returns is rebuilt after a restart as itself,
its network masked, when the pool recovers it, if and only if the bytes `ifaceName` keeps of the
container's ID are valid UTF-8. An ID cut inside a multi-byte character gives interface names
that come back with U+FFFD, names of no interface the host has. Reference:
`src/old/system_info/system_info_test.go:465`, `:518` and `:641`. -/
theorem build_rebuild_iff_valid {sub sub' : Subnets} {spec : GoString} {cfg : Config}
    {containerID name : GoString} {a : Allocation} (h : (build sub spec cfg containerID).2 = .ok a)
    (hp : Utf8.Valid cfg.networkInterfacePrefix)
    (hn : ifaceName cfg.networkInterfacePrefix containerID = some name)
    (hr : sub'.recover a.ipNet.masked a.containerIP = none) :
    (rebuild sub' a.marshalJSON).2 = .ok { a with ipNet := a.ipNet.masked } ↔ Utf8.Valid name := by
  obtain ⟨-, -, n, -, -, hn', hc, hh, -, hb⟩ := build_ok h
  rw [hn, Option.some.injEq] at hn'
  subst hn'
  rw [rebuild_marshalJSON_eq, hr]
  simp only [Except.ok.injEq, Allocation.mk.injEq, true_and, Utf8.reencode_eq_self_iff, hc, hh, hb]
  rw [Utf8.Valid.append_iff_right ⟨"-1", rfl⟩ (by decide), Utf8.Valid.append_iff_left hp,
    Utf8.Valid.append_iff_right ⟨"-0", rfl⟩ (by decide), Utf8.Valid.append_iff_left hp]
  exact ⟨fun h => h.1, fun h => ⟨h, h, (hp.append ⟨"br-", rfl⟩).append (valid_hexIP _)⟩⟩

/-- The bytes `ifaceName` keeps of the ID `é0123456789ab` under the prefix `w`: the last 13, the
first a continuation byte of `é`. -/
def sampleCutName : GoString := (GoString.ofString "é0123456789ab").drop 1

/-- What `Build` returns from `sampleSubnets` under the prefix `w` for the ID `é0123456789ab`. -/
def sampleCutAllocation : Allocation :=
  ⟨sampleAllocation.ipNet, sampleAllocation.containerIP,
    GoString.ofString "w" ++ sampleCutName ++ GoString.ofString "-1",
    GoString.ofString "w" ++ sampleCutName ++ GoString.ofString "-0", false,
    GoString.ofString "wbr-0afe0005"⟩

/-- The ID `é0123456789ab` under the prefix `w` is cut after the first byte of `é`: the names
`Build` returns start with a continuation byte, and the allocation does not survive a restart. -/
theorem build_rebuild_iff_valid_sample :
    (build sampleSubnets [] ⟨GoString.ofString "w"⟩ (GoString.ofString "é0123456789ab")).2 =
        .ok sampleCutAllocation ∧ Utf8.Valid (GoString.ofString "w") ∧
      ifaceName (GoString.ofString "w") (GoString.ofString "é0123456789ab") = some sampleCutName ∧
      sampleSubnets.recover sampleCutAllocation.ipNet.masked sampleCutAllocation.containerIP = none ∧
      ((rebuild sampleSubnets sampleCutAllocation.marshalJSON).2 =
          .ok { sampleCutAllocation with ipNet := sampleCutAllocation.ipNet.masked } ↔
        Utf8.Valid sampleCutName) ∧
      ¬ Utf8.Valid sampleCutName := by
  have hn : ifaceName (GoString.ofString "w") (GoString.ofString "é0123456789ab") =
      some sampleCutName := by decide
  have h : (build sampleSubnets [] ⟨GoString.ofString "w"⟩ (GoString.ofString "é0123456789ab")).2 =
      .ok sampleCutAllocation := by
    simp only [build, ite_true, hn]
    rfl
  have hcut : sampleCutName = 0xA9 :: GoString.ofString "0123456789ab" := by decide
  exact ⟨h, ⟨"w", rfl⟩, hn, rfl, build_rebuild_iff_valid h ⟨"w", rfl⟩ hn rfl,
    hcut ▸ Utf8.not_valid_cons_of_isCont (by decide) _⟩

end Network

end GardenLinux
