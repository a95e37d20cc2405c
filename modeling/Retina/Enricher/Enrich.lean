import Retina.Cache.Types
import Retina.Library.Execution
import Retina.Library.Ring

/-! # The enricher

`pkg/enricher/enricher.go`. The enricher reads the flows of the plugins from a ring, adds to each what the
cache knows about its addresses, and writes it to a second ring, from which the metrics module reads. The
cache may change between two lookups of one flow, so each lookup has a cache of its own. An address stands for
its text, and the empty text is `none`. What the enricher neither reads nor writes of a flow is a parameter.
-/
namespace Retina.Enricher
open Cache (NetIP)

inductive IPVersion where
  | notUsed | ipv4 | ipv6
deriving DecidableEq

structure IP where
  source : Option NetIP
  destination : Option NetIP
  ipVersion : IPVersion

structure Workload where
  name : String
  kind : String

structure Endpoint where
  ns : String
  podName : String
  labels : List String
  workloads : Option (List Workload)

/-- A value of the extensions. The numbers are `float64`. -/
inductive ExtValue where
  | number (bits : UInt64)
  | string (value : String)
  | struct (fields : List (String × UInt64))

abbrev Extensions := Finmap fun _ : String => ExtValue

structure Flow (Rest : Type) where
  ip : Option IP
  source : Option Endpoint := none
  destination : Option Endpoint := none
  extensions : Option Extensions := none
  rest : Rest

structure OwnerReference where
  name : String
  kind : String

/-- The labels are in the order in which the map is ranged over. -/
structure RetinaEndpoint where
  name : String
  ns : String
  labels : List (String × String)
  ownerRefs : Option (List OwnerReference)
  nodeIP : Option NetIP

structure RetinaNode where
  name : String
  zone : String

inductive Object where
  | endpoint (o : RetinaEndpoint)
  | svc
  | node (o : RetinaNode)

structure CacheInterface where
  getObjByIP : NetIP → Option Object
  getNodeByIP : NetIP → Option RetinaNode

def formattedLabels (o : RetinaEndpoint) : List String := o.labels.map fun l => l.1 ++ "=" ++ l.2

def getWorkloads (ownerRefs : Option (List OwnerReference)) : Option (List Workload) :=
  ownerRefs.map fun refs => refs.map fun ownerRef => ⟨ownerRef.name,ownerRef.kind⟩

def getEndpoint : Option Object → Option Endpoint
  | some (.endpoint o) => some ⟨o.ns,o.name,formattedLabels o,getWorkloads o.ownerRefs⟩
  | _ => none

def zoneUnknown : String := "unknown"

def zoneFromObj (c : CacheInterface) : Option Object → String
  | some (.endpoint o) =>
    match o.nodeIP.bind c.getNodeByIP with
    | some node => if node.zone ≠ "" then node.zone else zoneUnknown
    | none => zoneUnknown
  | _ => zoneUnknown

/-! ## Extensions -/

def extKeySourceZone : String := "source_zone"
def extKeyDestinationZone : String := "destination_zone"

def addZones (s : Extensions) (srcZone dstZone : String) : Extensions :=
  (s.insert extKeySourceZone (.string srcZone)).insert extKeyDestinationZone (.string dstZone)

variable {Rest : Type}

/-- Packing the extensions into the flow and unpacking them returns what was packed. -/
def setExtensions (f : Flow Rest) (s : Extensions) : Flow Rest :=
  if s.keys = ∅ then f else { f with extensions := some s }

def zone (f : Flow Rest) (key : String) : String :=
  match f.extensions.bind fun s => s.lookup key with
  | some (.string value) => value
  | some _ => ""
  | none => zoneUnknown

def sourceZone (f : Flow Rest) : String := zone f extKeySourceZone
def destinationZone (f : Flow Rest) : String := zone f extKeyDestinationZone

theorem setExtensions_addZones (f : Flow Rest) (s : Extensions) (srcZone dstZone : String) :
    setExtensions f (addZones s srcZone dstZone) = { f with extensions := some (addZones s srcZone dstZone) } := by
  refine if_neg fun hempty => ?_
  have hmem : extKeyDestinationZone ∈ (addZones s srcZone dstZone).keys :=
    Finmap.mem_keys.mpr (Finmap.mem_insert.mpr (.inl rfl))
  rw [hempty] at hmem
  exact Finset.notMem_empty _ hmem

theorem lookup_addZones (s : Extensions) (srcZone dstZone key : String) :
    (addZones s srcZone dstZone).lookup key =
      if key = extKeyDestinationZone then some (.string dstZone)
      else if key = extKeySourceZone then some (.string srcZone)
      else s.lookup key := by
  unfold addZones
  split_ifs with hdst hsrc
  · rw [hdst, Finmap.lookup_insert]
  · rw [Finmap.lookup_insert_of_ne _ hdst, hsrc, Finmap.lookup_insert]
  · rw [Finmap.lookup_insert_of_ne _ hdst, Finmap.lookup_insert_of_ne _ hsrc]

/-! ## Enriching a flow -/

inductive Lookup where
  | srcObj | dstObj | srcZone | dstZone

section Enrich
variable (cache : Lookup → CacheInterface)

/-- The endpoint of a flow stays as it is if the cache does not know the address. -/
def endpointFrom (earlier : Option Endpoint) : Option Object → Option Endpoint
  | none => earlier
  | some o => getEndpoint (some o)

/-- The flow that is exported. A flow that is not exported is not read again. -/
def enrich (f : Flow Rest) : Option (Flow Rest) := do
  let ip ← f.ip
  if ip.ipVersion = .ipv6 then none else
  let source ← ip.source
  let srcObj := (cache .srcObj).getObjByIP source
  let f := { f with source := endpointFrom f.source srcObj }
  let destination ← ip.destination
  let dstObj := (cache .dstObj).getObjByIP destination
  let f := { f with destination := endpointFrom f.destination dstObj }
  let ext := addZones (f.extensions.getD ∅) (zoneFromObj (cache .srcZone) srcObj) (zoneFromObj (cache .dstZone) dstObj)
  some (setExtensions f ext)

structure Enriched (f f' : Flow Rest) : Prop where
  ip : f'.ip = f.ip
  rest : f'.rest = f.rest
  extensions : ∀ key, key ≠ extKeySourceZone → key ≠ extKeyDestinationZone →
    (f'.extensions.bind fun s => s.lookup key) = f.extensions.bind fun s => s.lookup key
  addresses : ∃ version sourceIP destinationIP, version ≠ .ipv6 ∧
    f.ip = some ⟨some sourceIP,some destinationIP,version⟩ ∧
    f'.source = endpointFrom f.source ((cache .srcObj).getObjByIP sourceIP) ∧
    f'.destination = endpointFrom f.destination ((cache .dstObj).getObjByIP destinationIP) ∧
    sourceZone f' = zoneFromObj (cache .srcZone) ((cache .srcObj).getObjByIP sourceIP) ∧
    destinationZone f' = zoneFromObj (cache .dstZone) ((cache .dstObj).getObjByIP destinationIP)

theorem enriched_of_enrich {f f' : Flow Rest} (h : enrich cache f = some f') : Enriched cache f f' := by
  obtain ⟨_ | ⟨_ | sourceIP,_ | destinationIP,version⟩,source,destination,extensions,rest⟩ := f
  · cases h
  · by_cases hv : version = .ipv6 <;> simp [enrich, hv] at h
  · by_cases hv : version = .ipv6 <;> simp [enrich, hv] at h
  · by_cases hv : version = .ipv6 <;> simp [enrich, hv] at h
  · by_cases hv : version = .ipv6
    · simp [enrich, hv] at h
    · rw [enrich, Option.bind_eq_bind, Option.bind_some, if_neg hv] at h
      cases h
      rw [setExtensions_addZones]
      refine ⟨rfl,rfl,?_,version,sourceIP,destinationIP,hv,rfl,rfl,rfl,?_,?_⟩
      · intro key hsrc hdst
        rw [Option.bind_some, lookup_addZones, if_neg hdst, if_neg hsrc]
        cases extensions <;> rfl
      · simp only [sourceZone, zone, Option.bind_some, lookup_addZones, if_pos]
        rfl
      · simp only [destinationZone, zone, Option.bind_some, lookup_addZones, if_pos]

end Enrich

end Retina.Enricher
