import GardenLinux.Fences.Erect
import GardenLinux.LinuxBackend.Run

/-!
# What a container's processes read of their network

`(*Allocation).ConfigureProcess` hands a container's processes their network as variables
appended to the environment it is given: the gateway's and the container's addresses, the prefix
length, the MTU, whether the subnet is shared, the subnet, the host's external address and the
subnet's address in hex. A process reads a variable as `getenv` does, from the first entry with
its name, and reads the values back with `net.ParseIP`, `net.ParseCIDR` and `strconv.ParseUint`.

`ReadsNetwork` says what such a process finds: the allocation, each variable parsed as the fence
wrote it. When the environment it is given sets none of the eight names, the one
`ConfigureProcess` returns is read so (`configureProcess_readsNetwork`): the names are distinct
and hold no `=`, so each reads its own value (`getenv_entries`), and each value is the text of
`IP.String`, `IPNet.String` or `uitoa`, which the parsers read back (`parseIP_ipString`,
`parseCIDR_toGoString`, `parseUint_formatUint`).
-/

namespace GardenLinux

namespace Network

open Net Strconv LinuxBackend

/-- The names of the variables `ConfigureProcess` sets, in its order. -/
def networkVarNames : List GoString :=
  ["network_host_ip", "network_container_ip", "network_cidr_suffix", "container_iface_mtu",
    "subnet_shareable", "network_cidr", "external_ip", "network_ip_hex"].map GoString.ofString

/-- The eight names `ConfigureProcess` sets are distinct. -/
theorem networkVarNames_nodup : networkVarNames.Nodup := by decide

/-- No name `ConfigureProcess` sets holds a `=`. -/
theorem equalsSign_not_mem_networkVarNames : ∀ k ∈ networkVarNames, equalsSign ∉ k := by decide

section Variables

variable (gatewayIP : IPNet → IP) (b : Builder) (a : Allocation)

/-- The variables `ConfigureProcess` appends, as names and values. -/
def networkVars : List (GoString × GoString) :=
  [(GoString.ofString "network_host_ip", (gatewayIP a.ipNet).toGoString),
    (GoString.ofString "network_container_ip", ipString a.containerIP),
    (GoString.ofString "network_cidr_suffix", formatUint a.ipNet.ones),
    (GoString.ofString "container_iface_mtu", formatUint b.mtu.toNat),
    (GoString.ofString "subnet_shareable", formatBool a.subnetShareable),
    (GoString.ofString "network_cidr", a.ipNet.toGoString),
    (GoString.ofString "external_ip", ipString b.externalIP),
    (GoString.ofString "network_ip_hex", hexIP a.ipNet.ip)]

/-- The variables `ConfigureProcess` appends have the eight names, in order. -/
theorem map_fst_networkVars : (networkVars gatewayIP b a).map Prod.fst = networkVarNames := rfl

/-- `ConfigureProcess` appends the entries of `networkVars` and keeps the environment it is
given. -/
theorem configureProcess_eq (env : List GoString) :
    configureProcess gatewayIP b a env = env ++ (networkVars gatewayIP b a).map envEntry := rfl

/-- Behind an environment that sets none of the names, each variable reads its own value. -/
theorem getenv_networkVars {env : List GoString} (henv : ∀ e ∈ env, envKey e ∉ networkVarNames) :
    ∀ p ∈ networkVars gatewayIP b a, getenv (configureProcess gatewayIP b a env) p.1 = some p.2 := by
  intro p hp
  have hk : p.1 ∈ networkVarNames := map_fst_networkVars gatewayIP b a ▸ List.mem_map_of_mem _ hp
  rw [configureProcess_eq, getenv_append_absent fun e he h => henv e he (h ▸ hk)]
  refine getenv_entries (fun q hq => ?_) ?_ p hp
  · exact equalsSign_not_mem_networkVarNames _
      (map_fst_networkVars gatewayIP b a ▸ List.mem_map_of_mem _ hq)
  · exact map_fst_networkVars gatewayIP b a ▸ networkVarNames_nodup

/-- What a process reads of its network from the environment `E`: each variable
`ConfigureProcess` sets, parsed as the fence wrote it, is the allocation's. -/
structure ReadsNetwork (E : List GoString) : Prop where
  /-- `network_host_ip` is the subnet's gateway. -/
  hostIP : (getenv E (GoString.ofString "network_host_ip")).map parseIP =
    some (some (gatewayIP a.ipNet))
  /-- `network_container_ip` is the container's address, or no address when it is nil. -/
  containerIP : (getenv E (GoString.ofString "network_container_ip")).map parseIP =
    some a.containerIP
  /-- `network_cidr_suffix` is the subnet's prefix length. -/
  cidrSuffix : (getenv E (GoString.ofString "network_cidr_suffix")).map parseUint =
    some (.ok (UInt64.ofNat a.ipNet.ones))
  /-- `container_iface_mtu` is the builder's MTU. -/
  mtu : (getenv E (GoString.ofString "container_iface_mtu")).map parseUint =
    some (.ok (UInt64.ofNat b.mtu.toNat))
  /-- `subnet_shareable` is `true` exactly when the subnet is shared. -/
  subnetShareable : getenv E (GoString.ofString "subnet_shareable") =
    some (GoString.ofString "true") ↔ a.subnetShareable
  /-- `network_cidr` is the subnet, its address masked as `ParseCIDR` returns it. -/
  cidr : (getenv E (GoString.ofString "network_cidr")).map parseCIDR =
    some (.ok (a.ipNet.ip, a.ipNet.masked))
  /-- `external_ip` is the host's external address, or no address when it is nil. -/
  externalIP : (getenv E (GoString.ofString "external_ip")).map parseIP = some b.externalIP
  /-- `network_ip_hex` is the subnet's address in hex, which no other address is written as
  (`hexIP_injective`). -/
  ipHex : getenv E (GoString.ofString "network_ip_hex") = some (hexIP a.ipNet.ip)

/-- **A container's processes read the allocation back.** Given an environment that sets none of
its names, `ConfigureProcess` returns one from which each network variable reads back, parsed,
what the allocation holds. Reference: `src/old/system_info/system_info_test.go:646`. -/
theorem configureProcess_readsNetwork {env : List GoString}
    (henv : ∀ e ∈ env, envKey e ∉ networkVarNames) :
    ReadsNetwork gatewayIP b a (configureProcess gatewayIP b a env) := by
  have h := getenv_networkVars gatewayIP b a henv
  simp only [networkVars, List.mem_cons, List.mem_singleton, forall_eq_or_imp] at h
  obtain ⟨hHost, hContainer, hSuffix, hMtu, hShare, hCidr, hExternal, hHex, -⟩ := h
  have hmtu : b.mtu.toNat < 2 ^ 64 := lt_trans b.mtu.toNat_lt_size (by decide)
  refine ⟨?_, ?_, ?_, ?_, ?_, ?_, ?_, hHex⟩
  · rw [hHost]
    exact congrArg some (parseIP_ipString (some _))
  · rw [hContainer]
    exact congrArg some (parseIP_ipString _)
  · rw [hSuffix]
    exact congrArg some (parseUint_formatUint (by have := a.ipNet.ones_le; omega))
  · rw [hMtu]
    exact congrArg some (parseUint_formatUint hmtu)
  · rw [hShare]
    cases a.subnetShareable <;> decide
  · rw [hCidr]
    exact congrArg some (parseCIDR_toGoString _)
  · rw [hExternal]
    exact congrArg some (parseIP_ipString _)

end Variables

/-- Behind `PATH=/bin`, the processes of the container `sampleAllocation` is for read its network
back. -/
theorem configureProcess_readsNetwork_sample :
    (∀ e ∈ [GoString.ofString "PATH=/bin"], envKey e ∉ networkVarNames) ∧
      ReadsNetwork sampleGateway sampleBuilder sampleAllocation
        (configureProcess sampleGateway sampleBuilder sampleAllocation
          [GoString.ofString "PATH=/bin"]) :=
  have h : ∀ e ∈ [GoString.ofString "PATH=/bin"], envKey e ∉ networkVarNames := by decide
  ⟨h, configureProcess_readsNetwork sampleGateway sampleBuilder sampleAllocation h⟩

end Network

end GardenLinux
