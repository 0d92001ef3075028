import DrainFabric.Policy

/-!
# Topology

`topology.hpp`: the resources, the paths over them, and the redundancy, capacity
and connectivity commitments a removal is checked against.

* `Topology.setStatus` — the only writer of a resource's status;
* `Topology.validateRemovalMany` — the hypothetical removal of a set of resources
  against every commitment, the first violation in canonical order winning;
* `Topology.enumerateRoutes` — the bounded depth-first search behind the
  connectivity commitment, as a machine with an explicit stack.
-/

namespace DrainFabric

open Lib

def maxResources : Nat := 4096
def maxPaths : Nat := 16384
def maxPathHops : Nat := 64
def maxGroups : Nat := 1024
def maxProtectedRoutes : Nat := 1024
def maxRoutesPerQuery : Nat := 8
def maxRouteDepth : Nat := 16
def maxRouteExpansions : Nat := 20000

/-- `ResourceStatus`. -/
inductive ResourceStatus
  | inService | unavailable | failed
  deriving DecidableEq, Repr

def ResourceStatus.toString : ResourceStatus → String
  | inService => "in-service"
  | unavailable => "unavailable"
  | failed => "failed"

def ResourceStatus.fromString (text : String) : Option ResourceStatus :=
  if text = "in-service" then some inService
  else if text = "unavailable" then some unavailable
  else if text = "failed" then some failed
  else none

@[simp] theorem ResourceStatus.fromString_toString (status : ResourceStatus) :
    fromString status.toString = some status := by
  cases status <;> decide

structure ResourceNode where
  target : DrainTarget := {}
  capacity : CapacityUnits := 0
  reserved : CapacityUnits := 0
  status : ResourceStatus := .inService
  deriving DecidableEq, Repr

variable {node : ResourceNode}

namespace ResourceNode

def id (n : ResourceNode) : ResourceId := n.target.id

/-- `available`: saturates at zero. -/
def available (n : ResourceNode) : CapacityUnits :=
  if n.reserved < n.capacity then n.capacity - n.reserved else 0

/-- `in_service`. -/
def isInService (n : ResourceNode) : Bool := n.status == .inService

/-- `to_json`. -/
def toJson (n : ResourceNode) : JsonValue :=
  .object [("target", n.target.toJson), ("capacity", .uint n.capacity),
    ("reserved", .uint n.reserved), ("status", .string n.status.toString)]

/-- `from_json`. -/
def fromJson (value : JsonValue) : Result ResourceNode := do
  rejectIf (¬ value.isObject) .persistenceCorrupt "resource entry is not an object"
  let targetValue ← orFail (value.find "target")
    .persistenceCorrupt "resource entry lacks a target"
  let target ← (DrainTarget.fromJson targetValue).mapError (fun err =>
    ⟨.persistenceCorrupt, "resource target rejected: " ++ err.message⟩)
  let status ← orFail (ResourceStatus.fromString (value.getString "status" "in-service"))
    .persistenceCorrupt "resource entry has an unknown status"
  return { target, capacity := value.readU64 "capacity", reserved := value.readU64 "reserved",
           status }

end ResourceNode

/-! ### Identity fields of topology documents -/

/-- `read_resource_id`. -/
def readResourceId (value : JsonValue) (key : String) : Result ResourceId := do
  let text ← orFail (value.findString key) .persistenceCorrupt "missing resource id field"
  orFail (parseSlug text) .malformedIdentity "malformed resource id field"

/-- `read_domain_id`. -/
def readDomainId (value : JsonValue) (key : String) : Result DomainId :=
  optionalSlug value key .malformedIdentity "malformed failure domain field"

/-- `read_group_id`. -/
def readGroupId (value : JsonValue) (key : String) : Result GroupId := do
  let text ← orFail (value.findString key) .persistenceCorrupt "missing group id field"
  rejectIf (text.isEmpty) .persistenceCorrupt "missing group id field"
  orFail (parseSlug text) .malformedIdentity "malformed group id field"

/-- A member list of resource identities; `noun` is how its errors name an entry. -/
def readMembers (items : List JsonValue) (noun : String) : Result (List ResourceId) :=
  items.mapM (fun entry => do
    let text ← orFail (match entry with | .string text => some text | _ => none)
      .persistenceCorrupt (noun ++ " is not a string")
    orFail (parseSlug text) .malformedIdentity ("malformed " ++ noun ++ " id"))

/-! ### Paths and commitments -/

/-- A declared path: an ordered list of resources. -/
structure FabricPath where
  id : ResourceId := ""
  domain : DomainId := ""
  hops : List ResourceId := []
  deriving DecidableEq, Repr

/-- `FabricPath::to_json`. -/
def FabricPath.toJson (p : FabricPath) : JsonValue :=
  .object [("id", .string p.id), ("domain", .string p.domain),
    ("hops", .array (p.hops.map JsonValue.string))]

/-- `FabricPath::from_json`. -/
def FabricPath.fromJson (value : JsonValue) : Result FabricPath := do
  rejectIf (¬ value.isObject) .persistenceCorrupt "path entry is not an object"
  let id ← (readResourceId value "id").mapError (fun _ =>
    ⟨.persistenceCorrupt, "path entry id rejected"⟩)
  let domain ← readDomainId value "domain"
  let items ← orFail (value.findArray "hops") .persistenceCorrupt "path entry lacks hops"
  rejectIf (items.length = 0) .persistenceCorrupt "path entry lacks hops"
  rejectIf (items.length > maxPathHops) .boundsExceeded "path hop count exceeds bound"
  let hops ← items.foldlM (fun hops entry => do
    let text ← orFail (match entry with | .string text => some text | _ => none)
      .persistenceCorrupt "path hop is not a string"
    let hop ← orFail (parseSlug text) .malformedIdentity "malformed path hop id"
    rejectIf (hop ∈ hops) .persistenceCorrupt "path repeats a hop"
    return hops ++ [hop]) []
  return { id, domain, hops }

/-- At least `requiredAvailable` of the paths must be in service. -/
structure DiversityGroup where
  id : GroupId := ""
  domain : DomainId := ""
  requiredAvailable : MemberCount := 0
  paths : List ResourceId := []
  deriving DecidableEq, Repr

/-- `DiversityGroup::to_json`. -/
def DiversityGroup.toJson (g : DiversityGroup) : JsonValue :=
  .object [("id", .string g.id), ("domain", .string g.domain),
    ("required_available", .uint g.requiredAvailable),
    ("paths", .array (g.paths.map JsonValue.string))]

/-- `DiversityGroup::from_json`. -/
def DiversityGroup.fromJson (value : JsonValue) : Result DiversityGroup := do
  rejectIf (¬ value.isObject) .persistenceCorrupt "diversity group entry is not an object"
  let id ← readGroupId value "id"
  let domain ← readDomainId value "domain"
  let requiredAvailable := value.readU64 "required_available"
  rejectIf (requiredAvailable = 0)
    .persistenceCorrupt "diversity group requires at least one available member"
  let items ← orFail (value.findArray "paths")
    .persistenceCorrupt "diversity group lacks member paths"
  rejectIf (items.length = 0) .persistenceCorrupt "diversity group lacks member paths"
  rejectIf (items.length > maxPaths) .boundsExceeded "diversity group member count exceeds bound"
  let paths ← readMembers items "diversity group member"
  return { id, domain, requiredAvailable, paths }

/-- At least `required` capacity must remain available across the members. -/
structure CapacityPool where
  id : GroupId := ""
  domain : DomainId := ""
  required : CapacityUnits := 0
  members : List ResourceId := []
  deriving DecidableEq, Repr

/-- `CapacityPool::to_json`. -/
def CapacityPool.toJson (p : CapacityPool) : JsonValue :=
  .object [("id", .string p.id), ("domain", .string p.domain), ("required", .uint p.required),
    ("members", .array (p.members.map JsonValue.string))]

/-- `CapacityPool::from_json`. -/
def CapacityPool.fromJson (value : JsonValue) : Result CapacityPool := do
  rejectIf (¬ value.isObject) .persistenceCorrupt "capacity pool entry is not an object"
  let id ← readGroupId value "id"
  let domain ← readDomainId value "domain"
  let items ← orFail (value.findArray "members") .persistenceCorrupt "capacity pool lacks members"
  rejectIf (items.length = 0) .persistenceCorrupt "capacity pool lacks members"
  rejectIf (items.length > maxResources)
    .boundsExceeded "capacity pool member count exceeds bound"
  let members ← readMembers items "capacity pool member"
  return { id, domain, required := value.readU64 "required", members }

/-- A route must exist between the origin and the terminus. -/
structure ProtectedRoute where
  id : GroupId := ""
  domain : DomainId := ""
  origin : ResourceId := ""
  terminus : ResourceId := ""
  deriving DecidableEq, Repr

/-- `ProtectedRoute::to_json`. -/
def ProtectedRoute.toJson (r : ProtectedRoute) : JsonValue :=
  .object [("id", .string r.id), ("domain", .string r.domain), ("origin", .string r.origin),
    ("terminus", .string r.terminus)]

/-- `ProtectedRoute::from_json`. -/
def ProtectedRoute.fromJson (value : JsonValue) : Result ProtectedRoute := do
  rejectIf (¬ value.isObject) .persistenceCorrupt "protected route entry is not an object"
  let id ← readGroupId value "id"
  let domain ← readDomainId value "domain"
  let origin ← (readResourceId value "origin").mapError (fun _ =>
    ⟨.persistenceCorrupt, "protected route origin rejected"⟩)
  let terminus ← (readResourceId value "terminus").mapError (fun _ =>
    ⟨.persistenceCorrupt, "protected route terminus rejected"⟩)
  return { id, domain, origin, terminus }

inductive TopologyViolation.Kind
  | none | unknownResource | capacityPoolExhausted | diversityLost | routeSevered
  | reservationOverCapacity
  deriving DecidableEq, Repr

/-- The first commitment a removal would violate; kind `none` when it violates
none. -/
structure TopologyViolation where
  kind : TopologyViolation.Kind := .none
  subject : String := ""
  detail : String := ""
  required : Nat := 0
  remaining : Nat := 0
  deriving DecidableEq, Repr

def TopologyViolation.ok (v : TopologyViolation) : Bool := v.kind == .none

structure Topology where
  resources : Table ResourceNode.id := Table.empty ResourceNode.id
  paths : Table FabricPath.id := Table.empty FabricPath.id
  diversityGroups : Table DiversityGroup.id := Table.empty DiversityGroup.id
  capacityPools : Table CapacityPool.id := Table.empty CapacityPool.id
  protectedRoutes : List ProtectedRoute := []
  adjacency : OrdMap ResourceId (List ResourceId) := Table.empty Prod.fst

variable {t t' : Topology}

namespace Topology

/-! ### Building a topology -/

/-- `add_resource`. -/
def addResource (t : Topology) (node : ResourceNode) : Result Topology := do
  rejectIf (node.id.isEmpty) .malformedIdentity "resource id must not be empty"
  rejectIf (t.resources.size ≥ maxResources) .boundsExceeded "topology resource limit reached"
  let resources ← orFail (t.resources.emplace node)
    .alreadyExists "resource already present in topology"
  return { t with resources }

/-- `std::lower_bound` insertion of a peer that is not present yet. -/
def insertSorted (peer : ResourceId) : List ResourceId → List ResourceId
  | [] => [peer]
  | p :: rest => if p < peer then p :: insertSorted peer rest
                 else if p = peer then p :: rest
                 else peer :: p :: rest

/-- `neighbors`. -/
def neighbors (t : Topology) (id : ResourceId) : List ResourceId :=
  (OrdMap.get? t.adjacency id).getD []

/-- `add_edge`. -/
def addEdge (t : Topology) (a b : ResourceId) : Result Topology := do
  rejectIf (a = b) .invalidArgument "self edges are not permitted"
  rejectIf ((t.resources.find? a).isNone ∨ (t.resources.find? b).isNone)
    .notFound "both endpoints of an edge must exist"
  let left := OrdMap.set t.adjacency a (insertSorted b (t.neighbors a))
  let right := OrdMap.set left b (insertSorted a ((OrdMap.get? left b).getD []))
  return { t with adjacency := right }

/-- `add_path`. -/
def addPath (t : Topology) (path : FabricPath) : Result Topology := do
  rejectIf (path.id.isEmpty) .malformedIdentity "path id must not be empty"
  rejectIf (path.hops = []) .invalidArgument "path must traverse at least one resource"
  rejectIf (path.hops.length > maxPathHops) .boundsExceeded "path hop count exceeds bound"
  rejectIf (t.paths.size ≥ maxPaths) .boundsExceeded "topology path limit reached"
  rejectIf (¬ path.hops.Nodup) .invalidArgument "path repeats a hop"
  let paths ← orFail (t.paths.emplace path) .alreadyExists "path already present in topology"
  return { t with paths }

/-- `add_diversity_group`. -/
def addDiversityGroup (t : Topology) (group : DiversityGroup) : Result Topology := do
  rejectIf (group.id.isEmpty) .malformedIdentity "diversity group id must not be empty"
  rejectIf (group.paths = []) .invalidArgument "diversity group must list at least one path"
  rejectIf (group.requiredAvailable = 0 ∨ group.requiredAvailable > group.paths.length)
    .invalidArgument "diversity requirement must be between one and the number of member paths"
  rejectIf (t.diversityGroups.size ≥ maxGroups) .boundsExceeded "diversity group limit reached"
  let diversityGroups ← orFail (t.diversityGroups.emplace group)
    .alreadyExists "diversity group already present"
  return { t with diversityGroups }

/-- `add_capacity_pool`. -/
def addCapacityPool (t : Topology) (pool : CapacityPool) : Result Topology := do
  rejectIf (pool.id.isEmpty) .malformedIdentity "capacity pool id must not be empty"
  rejectIf (pool.members = []) .invalidArgument "capacity pool must list at least one member"
  rejectIf (t.capacityPools.size ≥ maxGroups) .boundsExceeded "capacity pool limit reached"
  let capacityPools ← orFail (t.capacityPools.emplace pool)
    .alreadyExists "capacity pool already present"
  return { t with capacityPools }

/-- `add_protected_route`. -/
def addProtectedRoute (t : Topology) (route : ProtectedRoute) : Result Topology := do
  rejectIf (route.id.isEmpty) .malformedIdentity "protected route id must not be empty"
  rejectIf (route.origin = route.terminus)
    .invalidArgument "protected route endpoints must differ"
  rejectIf (t.protectedRoutes.length ≥ maxProtectedRoutes)
    .boundsExceeded "protected route limit reached"
  rejectIf (t.protectedRoutes.any (fun existing => existing.id = route.id))
    .alreadyExists "protected route already present"
  return { t with protectedRoutes := t.protectedRoutes ++ [route] }

/-- `resource`. -/
def resource (t : Topology) (id : ResourceId) : Option ResourceNode := t.resources.find? id

/-- `set_status`. -/
def setStatus (t : Topology) (id : ResourceId) (status : ResourceStatus) : Result Topology :=
  match t.resource id with
  | none => fail .notFound "resource is not present in topology"
  | some node => .ok { t with resources := t.resources.put { node with status } }

/-! ### Route search -/

/-- The local state of the search loop. The stack holds, top first, the resources
of the current route with the cursor into the neighbours of each. -/
structure RouteSearch where
  routes : List (List ResourceId) := []
  expansions : Nat := 0
  stack : List (ResourceId × Nat)
  onPath : List ResourceId
  deriving Repr

/-- What the search is asked for. -/
structure RouteQuery where
  goal : ResourceId
  exclude : List ResourceId
  routeBudget : Nat
  depthBudget : Nat

/-- One iteration of the search loop; `none` when the loop ends. -/
def routeStep (t : Topology) (q : RouteQuery) (s : RouteSearch) : Option RouteSearch :=
  match s.stack with
  | [] => none
  | (current, index) :: below =>
    if s.routes.length ≥ q.routeBudget ∨ s.expansions ≥ maxRouteExpansions then none
    else
      match (t.neighbors current)[index]? with
      | none => some { s with stack := below, onPath := s.onPath.filter (· ≠ current) }
      | some next =>
        let s := { s with stack := (current, index + 1) :: below,
                          expansions := s.expansions + 1 }
        let usable := match t.resource next with
          | none => false
          | some node => node.isInService && !q.exclude.contains next
        if s.onPath.contains next then some s
        else if ¬ usable then some s
        else if s.stack.length ≥ q.depthBudget then some s
        else if next = q.goal then
          some { s with routes := s.routes ++ [((next, 0) :: s.stack).reverse.map Prod.fst] }
        else some { s with stack := (next, 0) :: s.stack, onPath := next :: s.onPath }

/-- The search loop. Every iteration expands once or pops once, and there is at
most one pop per expansion besides the pop of the origin. -/
def routeLoop (t : Topology) (q : RouteQuery) : Nat → RouteSearch → RouteSearch
  | 0, s => s
  | fuel + 1, s =>
    match t.routeStep q s with
    | none => s
    | some s' => t.routeLoop q fuel s'

/-- `enumerate_routes`. -/
def enumerateRoutes (t : Topology) (source goal : ResourceId) (exclude : List ResourceId)
    (maxRoutes maxDepth : Nat) : List (List ResourceId) :=
  if maxRoutes = 0 ∨ maxDepth = 0 then []
  else if exclude.contains source || exclude.contains goal then []
  else
    match t.resource source, t.resource goal with
    | some origin, some target =>
      if !origin.isInService || !target.isInService then []
      else
        let q : RouteQuery := { goal, exclude, routeBudget := min maxRoutes maxRoutesPerQuery,
                                depthBudget := min maxDepth maxRouteDepth }
        let s : RouteSearch := { stack := [(source, 0)], onPath := [source] }
        sortUnique (fun a b => decide (a < b))
          (t.routeLoop q (2 * maxRouteExpansions + 2) s).routes
    | _, _ => []

/-! ### Commitments -/

/-- `apply_headroom`: rounds up; the sum wraps like the machine addition. -/
def applyHeadroom (required numerator denominator : Nat) : Nat :=
  if denominator = 0 then required
  else
    match mulChecked required numerator with
    | none => u64Max
    | some product => (product + denominator - 1) % 2 ^ 64 / denominator

/-- `available_pool_capacity`: in-service members outside the exclusion set. -/
def availablePoolCapacity (t : Topology) (pool : CapacityPool) (exclude : List ResourceId) : Nat :=
  pool.members.foldl (fun total member =>
    if exclude.contains member then total
    else
      match t.resource member with
      | none => total
      | some node =>
        if !node.isInService then total
        else (addChecked total node.available).getD u64Max) 0

/-- The first of the checks on the resources that are to be removed. -/
def removingViolation (t : Topology) (id : ResourceId) : Option TopologyViolation :=
  match t.resource id with
  | none => some { kind := .unknownResource, subject := id,
                   detail := "resource is not present in the topology" }
  | some node =>
    if node.reserved > node.capacity then
      some { kind := .reservationOverCapacity, subject := id, required := node.reserved,
             remaining := node.capacity,
             detail := "resource reservations exceed its recorded capacity" }
    else none

def poolViolation (t : Topology) (excluded : List ResourceId) (label : String)
    (numerator denominator : Nat) (pool : CapacityPool) : Option TopologyViolation :=
  let remaining := t.availablePoolCapacity pool excluded
  let required := applyHeadroom pool.required numerator denominator
  if remaining < required then
    some { kind := .capacityPoolExhausted, subject := pool.id, required, remaining,
           detail := "removing " ++ label ++ " would leave the pool below its commitment" }
  else none

def groupViolation (t : Topology) (excluded : List ResourceId) (label : String)
    (group : DiversityGroup) : Option TopologyViolation :=
  let available := (group.paths.filter (fun pathId =>
    match t.paths.find? pathId with
    | none => false
    | some path => path.hops.all (fun hop => !excluded.contains hop))).length
  if available < group.requiredAvailable then
    some { kind := .diversityLost, subject := group.id, required := group.requiredAvailable,
           remaining := available,
           detail := "removing " ++ label ++ " would drop available paths below the commitment" }
  else none

def routeViolation (t : Topology) (excluded : List ResourceId) (route : ProtectedRoute) :
    Option TopologyViolation :=
  if t.enumerateRoutes route.origin route.terminus excluded 1 maxRouteDepth = [] then
    some { kind := .routeSevered, subject := route.id, required := 1, remaining := 0,
           detail := "no route remains between " ++ route.origin ++ " and " ++ route.terminus }
  else none

/-- `validate_removal_many`. The set of resources is the sorted list of its
members. -/
def validateRemovalMany (t : Topology) (removing : List ResourceId)
    (numerator denominator : Nat) : TopologyViolation :=
  match removing with
  | [] => { kind := .unknownResource, detail := "no resources were named for removal" }
  | first :: others =>
    let outOfService := (t.resources.toList.filter (fun node => !node.isInService)).map
      ResourceNode.id
    let excluded := outOfService ++ removing
    let label := if others = [] then first else "drain-set"
    let violation := (removing.findSome? t.removingViolation).orElse fun _ =>
      (t.capacityPools.toList.findSome?
        (t.poolViolation excluded label numerator denominator)).orElse fun _ =>
      (t.diversityGroups.toList.findSome? (t.groupViolation excluded label)).orElse fun _ =>
      t.protectedRoutes.findSome? (t.routeViolation excluded)
    violation.getD {}

/-- `validate_removal`. -/
def validateRemoval (t : Topology) (removing : ResourceId) (numerator denominator : Nat) :
    TopologyViolation :=
  t.validateRemovalMany [removing] numerator denominator

/-! ### Snapshots -/

/-- The edge list of `to_json`: each undirected edge once, from its smaller end. -/
def edgeList (t : Topology) : List (ResourceId × ResourceId) :=
  t.adjacency.toList.flatMap (fun (source, peers) =>
    (peers.filter (fun peer => ¬ peer < source)).map (fun peer => (source, peer)))

/-- `to_json`. -/
def toJson (t : Topology) : JsonValue :=
  .object [("resources", .array (t.resources.toList.map ResourceNode.toJson)),
    ("edges", .array (t.edgeList.map (fun (source, peer) =>
      .object [("from", .string source), ("to", .string peer)]))),
    ("paths", .array (t.paths.toList.map FabricPath.toJson)),
    ("diversity_groups", .array (t.diversityGroups.toList.map DiversityGroup.toJson)),
    ("capacity_pools", .array (t.capacityPools.toList.map CapacityPool.toJson)),
    ("protected_routes", .array (t.protectedRoutes.map ProtectedRoute.toJson))]

/-- The error under which `load_from_json` reports a refused entry. -/
def entryRejected (noun : String) (err : Error) : Error :=
  ⟨.persistenceCorrupt, noun ++ " rejected: " ++ err.message⟩

/-- Decode one entry and add it, both under the same error. -/
def loadEntry {α : Type} (noun : String) (decode : JsonValue → Result α)
    (add : Topology → α → Result Topology) (staged : Topology) (entry : JsonValue) :
    Result Topology := do
  let item ← (decode entry).mapError (entryRejected noun)
  (add staged item).mapError (entryRejected noun)

/-- The loop body for one edge: an endpoint that does not decode is reported
without its reason. -/
def loadEdge (staged : Topology) (entry : JsonValue) : Result Topology := do
  let source ← (readResourceId entry "from").mapError (fun _ =>
    ⟨.persistenceCorrupt, "edge entry rejected"⟩)
  let peer ← (readResourceId entry "to").mapError (fun _ =>
    ⟨.persistenceCorrupt, "edge entry rejected"⟩)
  (staged.addEdge source peer).mapError (entryRejected "edge entry")

/-- An optional list of entries: absent members load nothing. -/
def loadOptional (value : JsonValue) (key : String) (bound : Nat) (noun : String)
    (step : Topology → JsonValue → Result Topology) (staged : Topology) : Result Topology :=
  match value.findArray key with
  | none => .ok staged
  | some items => do
    rejectIf (items.length > bound) .boundsExceeded (noun ++ " count exceeds bound")
    items.foldlM step staged

/-- `load_from_json`. -/
def loadFromJson (value : JsonValue) : Result Topology := do
  rejectIf (¬ value.isObject) .persistenceCorrupt "topology payload is not an object"
  let resources ← orFail (value.findArray "resources")
    .persistenceCorrupt "topology payload lacks a resources array"
  rejectIf (resources.length > maxResources)
    .boundsExceeded "topology resource count exceeds bound"
  let staged ← resources.foldlM
    (loadEntry "resource entry" ResourceNode.fromJson addResource) {}
  let staged ← loadOptional value "paths" maxPaths "topology path"
    (loadEntry "path entry" FabricPath.fromJson addPath) staged
  let staged ← loadOptional value "edges" (maxResources * maxResources) "topology edge"
    loadEdge staged
  let staged ← loadOptional value "diversity_groups" maxGroups "diversity group"
    (loadEntry "diversity group" DiversityGroup.fromJson addDiversityGroup) staged
  let staged ← loadOptional value "capacity_pools" maxGroups "capacity pool"
    (loadEntry "capacity pool" CapacityPool.fromJson addCapacityPool) staged
  loadOptional value "protected_routes" maxProtectedRoutes "protected route"
    (loadEntry "protected route" ProtectedRoute.fromJson addProtectedRoute) staged

/-! ### Lemmas -/

/-- Writing a status rewrites one resource and nothing else. -/
theorem setStatus_eq_ok {id : ResourceId} {status : ResourceStatus} :
    t.setStatus id status = .ok t' ↔
      ∃ node, t.resource id = some node ∧
        t' = { t with resources := t.resources.put { node with status } } := by
  unfold setStatus
  cases t.resource id with
  | none => simp [fail]
  | some node => simp [eq_comm]

theorem resource_setStatus {id : ResourceId} {status : ResourceStatus}
    (h : t.setStatus id status = .ok t') (id' : ResourceId) :
    t'.resource id' =
      if id' = id then (t.resource id).map (fun node => { node with status })
      else t.resource id' := by
  obtain ⟨node, hnode, rfl⟩ := setStatus_eq_ok.mp h
  have hid : node.id = id := Table.key_of_find? hnode
  have hkey : ResourceNode.id { node with status } = id := hid
  rw [hnode]
  split_ifs with heq
  · subst heq
    exact Table.find?_put_of_eq hkey
  · exact Table.find?_put_of_ne (fun h => heq (h.symm.trans hkey))

/-- Loading an entry of another kind leaves the resources alone. -/
theorem resources_loadEntry {α : Type} {noun : String} {decode : JsonValue → Result α}
    {add : Topology → α → Result Topology}
    (hadd : ∀ t a t', add t a = .ok t' → t'.resources = t.resources) {staged staged' : Topology}
    {entry : JsonValue} (h : loadEntry noun decode add staged entry = .ok staged') :
    staged'.resources = staged.resources := by
  simp only [loadEntry, bind_eq_ok, mapError_eq_ok] at h
  obtain ⟨a, -, h⟩ := h
  exact hadd _ _ _ h

theorem resources_loadOptional {value : JsonValue} {key : String} {bound : Nat} {noun : String}
    {step : Topology → JsonValue → Result Topology}
    (hstep : ∀ t entry t', step t entry = .ok t' → t'.resources = t.resources)
    {staged staged' : Topology} (h : loadOptional value key bound noun step staged = .ok staged') :
    staged'.resources = staged.resources := by
  unfold loadOptional at h
  cases hitems : value.findArray key with
  | none =>
    simp only [hitems, Except.ok.injEq] at h
    rw [h]
  | some items =>
    simp only [hitems, bind_eq_ok] at h
    obtain ⟨_, -, h⟩ := h
    exact foldlM_ok (P := fun t => t.resources = staged.resources)
      (fun t entry t' _ ht hs => (hstep t entry t' hs).trans ht) rfl h

/-- A resource is only ever added under an id that was free. -/
theorem addResource_eq_ok :
    t.addResource node = .ok t' ↔
      node.id.isEmpty = false ∧ t.resources.size < maxResources ∧ t.resource node.id = none ∧
        t' = { t with resources := t.resources.put node } := by
  simp only [addResource, bind_eq_ok, pure_eq_ok, orFail_eq_ok, rejectIf_eq_ok, exists_const,
    Table.emplace_eq_some_iff, Bool.not_eq_true, ge_iff_le, not_le]
  constructor
  · rintro ⟨hid, hroom, _, ⟨hfree, rfl⟩, rfl⟩
    exact ⟨hid, hroom, hfree, rfl⟩
  · rintro ⟨hid, hroom, hfree, rfl⟩
    exact ⟨hid, hroom, _, ⟨hfree, rfl⟩, rfl⟩

theorem addPath_eq_ok {path : FabricPath} :
    t.addPath path = .ok t' ↔
      path.id.isEmpty = false ∧ path.hops ≠ [] ∧ path.hops.length ≤ maxPathHops ∧
        t.paths.size < maxPaths ∧ path.hops.Nodup ∧ t.paths.find? path.id = none ∧
        t' = { t with paths := t.paths.put path } := by
  simp only [addPath, bind_eq_ok, pure_eq_ok, orFail_eq_ok, rejectIf_eq_ok, exists_const,
    Table.emplace_eq_some_iff, Bool.not_eq_true, ge_iff_le, gt_iff_lt, not_le, not_lt, not_not]
  constructor
  · rintro ⟨hid, hsome, hbound, hroom, hnodup, _, ⟨hfree, rfl⟩, rfl⟩
    exact ⟨hid, hsome, hbound, hroom, hnodup, hfree, rfl⟩
  · rintro ⟨hid, hsome, hbound, hroom, hnodup, hfree, rfl⟩
    exact ⟨hid, hsome, hbound, hroom, hnodup, _, ⟨hfree, rfl⟩, rfl⟩

theorem addDiversityGroup_eq_ok {group : DiversityGroup} :
    t.addDiversityGroup group = .ok t' ↔
      group.id.isEmpty = false ∧ group.paths ≠ [] ∧ group.requiredAvailable ≠ 0 ∧
        group.requiredAvailable ≤ group.paths.length ∧ t.diversityGroups.size < maxGroups ∧
        t.diversityGroups.find? group.id = none ∧
        t' = { t with diversityGroups := t.diversityGroups.put group } := by
  simp only [addDiversityGroup, bind_eq_ok, pure_eq_ok, orFail_eq_ok, rejectIf_eq_ok, exists_const,
    Table.emplace_eq_some_iff, Bool.not_eq_true, ge_iff_le, gt_iff_lt, not_le, not_lt, not_or]
  constructor
  · rintro ⟨hid, hsome, ⟨hzero, hrange⟩, hroom, _, ⟨hfree, rfl⟩, rfl⟩
    exact ⟨hid, hsome, hzero, hrange, hroom, hfree, rfl⟩
  · rintro ⟨hid, hsome, hzero, hrange, hroom, hfree, rfl⟩
    exact ⟨hid, hsome, ⟨hzero, hrange⟩, hroom, _, ⟨hfree, rfl⟩, rfl⟩

theorem addCapacityPool_eq_ok {pool : CapacityPool} :
    t.addCapacityPool pool = .ok t' ↔
      pool.id.isEmpty = false ∧ pool.members ≠ [] ∧ t.capacityPools.size < maxGroups ∧
        t.capacityPools.find? pool.id = none ∧
        t' = { t with capacityPools := t.capacityPools.put pool } := by
  simp only [addCapacityPool, bind_eq_ok, pure_eq_ok, orFail_eq_ok, rejectIf_eq_ok, exists_const,
    Table.emplace_eq_some_iff, Bool.not_eq_true, ge_iff_le, not_le]
  constructor
  · rintro ⟨hid, hsome, hroom, _, ⟨hfree, rfl⟩, rfl⟩
    exact ⟨hid, hsome, hroom, hfree, rfl⟩
  · rintro ⟨hid, hsome, hroom, hfree, rfl⟩
    exact ⟨hid, hsome, hroom, _, ⟨hfree, rfl⟩, rfl⟩

theorem addProtectedRoute_eq_ok {route : ProtectedRoute} :
    t.addProtectedRoute route = .ok t' ↔
      route.id.isEmpty = false ∧ route.origin ≠ route.terminus ∧
        t.protectedRoutes.length < maxProtectedRoutes ∧
        (∀ r ∈ t.protectedRoutes, r.id ≠ route.id) ∧
        t' = { t with protectedRoutes := t.protectedRoutes ++ [route] } := by
  simp only [addProtectedRoute, bind_eq_ok, pure_eq_ok, rejectIf_eq_ok, exists_const,
    Bool.not_eq_true, ge_iff_le, not_le, List.any_eq_false, decide_eq_true_eq]
  constructor
  · rintro ⟨hid, hends, hroom, hnew, rfl⟩
    exact ⟨hid, hends, hroom, hnew, rfl⟩
  · rintro ⟨hid, hends, hroom, hnew, rfl⟩
    exact ⟨hid, hends, hroom, hnew, rfl⟩

theorem resources_addPath {path : FabricPath} (h : t.addPath path = .ok t') :
    t'.resources = t.resources := by
  obtain ⟨-, -, -, -, -, -, rfl⟩ := addPath_eq_ok.mp h
  rfl

theorem resources_addDiversityGroup {group : DiversityGroup}
    (h : t.addDiversityGroup group = .ok t') : t'.resources = t.resources := by
  obtain ⟨-, -, -, -, -, -, rfl⟩ := addDiversityGroup_eq_ok.mp h
  rfl

theorem resources_addCapacityPool {pool : CapacityPool} (h : t.addCapacityPool pool = .ok t') :
    t'.resources = t.resources := by
  obtain ⟨-, -, -, -, rfl⟩ := addCapacityPool_eq_ok.mp h
  rfl

theorem resources_addProtectedRoute {route : ProtectedRoute}
    (h : t.addProtectedRoute route = .ok t') : t'.resources = t.resources := by
  obtain ⟨-, -, -, -, rfl⟩ := addProtectedRoute_eq_ok.mp h
  rfl

theorem resources_addEdge {a b : ResourceId} (h : t.addEdge a b = .ok t') :
    t'.resources = t.resources := by
  simp only [addEdge, bind_eq_ok, pure_eq_ok] at h
  obtain ⟨_, -, _, -, rfl⟩ := h
  rfl

theorem resources_loadEdge {entry : JsonValue} (h : loadEdge t entry = .ok t') :
    t'.resources = t.resources := by
  simp only [loadEdge, bind_eq_ok, mapError_eq_ok] at h
  obtain ⟨_, -, _, -, h⟩ := h
  exact resources_addEdge h

end Topology

end DrainFabric
