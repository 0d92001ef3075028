import Mathlib.Algebra.Group.Action.Defs
import Mathlib.Algebra.Order.BigOperators.Group.List
import Mathlib.Data.List.Perm.Subperm
import DrainFabric.Codec.Values
import DrainFabric.Topology

/-!
# Reading a topology back

A snapshot holds each undirected edge once, so the adjacency is rebuilt edge by edge. It
is rebuilt as it was when its rows are sorted, symmetric and not empty (`Meshed`), which is
how `add_edge` leaves them.

* `Meshed.link` — an added edge keeps the adjacency meshed;
* `adjacency_ext` — a meshed adjacency is determined by its links;
* `Topology.loadFromJson_eq_ok` — what a written topology is read as, and when;
* `Sound.addResource` and the like — every operation keeps what the reader relies on.
-/

namespace DrainFabric

open Lib

attribute [local simp] JsonValue.getString JsonValue.findString JsonValue.findArray
  JsonValue.readU64

variable {value : JsonValue} {key text : String} {id x a b y : ResourceId} {row : List ResourceId}

/-! ### Entries -/

namespace ResourceNode

theorem fromJson_eq_ok {n n' : ResourceNode} :
    fromJson n.toJson = .ok n' ↔ n.target.Readable ∧ n' = n := by
  have htarget : n.toJson.find "target" = some n.target.toJson := by simp [toJson]
  have hstatus : n.toJson.getString "status" "in-service" = n.status.toString := by
    simp [toJson]
  have hresult :
      ({ target := n.target, capacity := n.toJson.readU64 "capacity",
         reserved := n.toJson.readU64 "reserved", status := n.status } : ResourceNode) = n := by
    simp [toJson]
  simp only [fromJson, bind_eq_ok, pure_eq_ok, rejectIf_eq_ok, orFail_eq_ok, mapError_eq_ok,
    htarget, hstatus, Option.some.injEq, ResourceStatus.fromString_toString]
  constructor
  · rintro ⟨_, -, _, rfl, _, htarget', _, rfl, rfl⟩
    obtain ⟨hreadable, rfl⟩ := DrainTarget.fromJson_eq_ok.mp htarget'
    exact ⟨hreadable, hresult⟩
  · rintro ⟨hreadable, rfl⟩
    exact ⟨(), by simp [toJson], _, rfl, _,
      DrainTarget.fromJson_eq_ok.mpr ⟨hreadable, rfl⟩, _, rfl, hresult⟩

end ResourceNode

theorem readResourceId_eq_ok (hfind : value.find key = some (.string text)) :
    readResourceId value key = .ok id ↔ isValidSlug text = true ∧ id = text := by
  simp only [readResourceId, JsonValue.findString, hfind, bind_eq_ok, orFail_eq_ok,
    Option.some.injEq, exists_eq_left', parseSlug_iff]

theorem readDomainId_eq_ok {id : DomainId} (hfind : value.find key = some (.string text)) :
    readDomainId value key = .ok id ↔ IsOptionalSlug text ∧ id = text :=
  optionalSlug_iff hfind

theorem isEmpty_of_isValidSlug (h : isValidSlug text = true) : text.isEmpty = false := by
  cases hempty : text.isEmpty with
  | false => rfl
  | true =>
    obtain rfl := String.isEmpty_iff.mp hempty
    revert h
    decide

theorem readGroupId_eq_ok {id : GroupId} (hfind : value.find key = some (.string text)) :
    readGroupId value key = .ok id ↔ isValidSlug text = true ∧ id = text := by
  simp only [readGroupId, JsonValue.findString, hfind, bind_eq_ok, orFail_eq_ok, rejectIf_eq_ok,
    Option.some.injEq, exists_eq_left', parseSlug_iff]
  constructor
  · rintro ⟨_, -, h⟩
    exact h
  · intro h
    exact ⟨(), by simp [isEmpty_of_isValidSlug h.1], h⟩

theorem readMembers_eq_ok {members members' : List ResourceId} {noun : String} :
    readMembers (members.map JsonValue.string) noun = .ok members' ↔
      (∀ id ∈ members, isValidSlug id = true) ∧ members' = members := by
  refine mapM_map_eq_ok_self (fun id id' => ?_)
  simp only [bind_eq_ok, orFail_eq_ok, Option.some.injEq, exists_eq_left', parseSlug_iff]

namespace FabricPath

structure Readable (p : FabricPath) : Prop where
  id : isValidSlug p.id = true
  domain : IsOptionalSlug p.domain
  nonempty : p.hops ≠ []
  bound : p.hops.length ≤ maxPathHops
  hops : ∀ hop ∈ p.hops, isValidSlug hop = true
  nodup : p.hops.Nodup

/-- Reading the hops of a path, which asks that none is repeated. -/
theorem readHops_eq_ok {hops sofar hops' : List ResourceId} :
    (hops.map JsonValue.string).foldlM (fun (hops : List ResourceId) entry => do
      let text ← orFail (match entry with | .string text => some text | _ => none)
        .persistenceCorrupt "path hop is not a string"
      let hop ← orFail (parseSlug text) .malformedIdentity "malformed path hop id"
      rejectIf (hop ∈ hops) .persistenceCorrupt "path repeats a hop"
      return hops ++ [hop]) sofar = .ok hops' ↔
    (∀ hop ∈ hops, isValidSlug hop = true) ∧ hops.Nodup ∧ (∀ hop ∈ hops, hop ∉ sofar) ∧
      hops' = sofar ++ hops := by
  induction hops generalizing sofar with
  | nil =>
    rw [List.map_nil, List.foldlM_nil, pure_eq_ok, List.append_nil]
    exact ⟨fun h => ⟨fun _ hmem => (by cases hmem), .nil, fun _ hmem => (by cases hmem), h.symm⟩,
      fun h => h.2.2.2.symm⟩
  | cons hop rest ih =>
    rw [List.map_cons, List.foldlM_cons]
    simp only [bind_eq_ok, orFail_eq_ok, rejectIf_eq_ok, pure_eq_ok, Option.some.injEq,
      exists_eq_left', parseSlug_iff, ih]
    constructor
    · rintro ⟨_, ⟨_, ⟨hslug, rfl⟩, _, hnew, rfl⟩, hslugs, hnodup, hfresh, rfl⟩
      refine ⟨List.forall_mem_cons.mpr ⟨hslug, hslugs⟩, List.nodup_cons.mpr ⟨?_, hnodup⟩,
        List.forall_mem_cons.mpr ⟨hnew, ?_⟩, by simp⟩
      · exact fun hmem => hfresh _ hmem (by simp)
      · exact fun id hmem hold => hfresh id hmem (List.mem_append_left _ hold)
    · rintro ⟨hslugs, hnodup, hfresh, rfl⟩
      obtain ⟨hslug, hslugs⟩ := List.forall_mem_cons.mp hslugs
      obtain ⟨hnotin, hnodup⟩ := List.nodup_cons.mp hnodup
      obtain ⟨hnew, hfresh⟩ := List.forall_mem_cons.mp hfresh
      refine ⟨sofar ++ [hop], ⟨hop, ⟨hslug, rfl⟩, (), hnew, rfl⟩, hslugs, hnodup,
        fun id hmem hold => ?_, by simp⟩
      rcases List.mem_append.mp hold with hsofar | hlast
      · exact hfresh id hmem hsofar
      · exact hnotin (List.mem_singleton.mp hlast ▸ hmem)

theorem fromJson_eq_ok {p p' : FabricPath} : fromJson p.toJson = .ok p' ↔ p.Readable ∧ p' = p := by
  have hid : p.toJson.find "id" = some (.string p.id) := by simp [toJson]
  have hdomain : p.toJson.find "domain" = some (.string p.domain) := by simp [toJson]
  have hhops : p.toJson.findArray "hops" = some (p.hops.map JsonValue.string) := by
    simp [toJson]
  simp only [fromJson, bind_eq_ok, pure_eq_ok, rejectIf_eq_ok, orFail_eq_ok, mapError_eq_ok,
    readResourceId_eq_ok hid, readDomainId_eq_ok hdomain, hhops, Option.some.injEq,
    exists_eq_left', List.length_map]
  constructor
  · rintro ⟨_, -, _, ⟨hslug, rfl⟩, _, ⟨hdom, rfl⟩, _, hsome, _, hbound, _, hread, rfl⟩
    obtain ⟨hslugs, hnodup, -, rfl⟩ := readHops_eq_ok.mp hread
    exact ⟨⟨hslug, hdom, fun hnil => hsome (by rw [hnil]; rfl), Nat.not_lt.mp hbound, hslugs,
      hnodup⟩, rfl⟩
  · rintro ⟨h, rfl⟩
    exact ⟨(), by simp [toJson], _, ⟨h.id, rfl⟩, _, ⟨h.domain, rfl⟩, (),
      fun hnil => h.nonempty (List.length_eq_zero_iff.mp hnil), (), Nat.not_lt.mpr h.bound, _,
      readHops_eq_ok.mpr ⟨h.hops, h.nodup, fun _ _ hmem => (by cases hmem), rfl⟩, rfl⟩

end FabricPath

namespace DiversityGroup

structure Readable (g : DiversityGroup) : Prop where
  id : isValidSlug g.id = true
  domain : IsOptionalSlug g.domain
  required : g.requiredAvailable ≠ 0
  nonempty : g.paths ≠ []
  bound : g.paths.length ≤ maxPaths
  paths : ∀ id ∈ g.paths, isValidSlug id = true

theorem fromJson_eq_ok {g g' : DiversityGroup} :
    fromJson g.toJson = .ok g' ↔ g.Readable ∧ g' = g := by
  have hid : g.toJson.find "id" = some (.string g.id) := by simp [toJson]
  have hdomain : g.toJson.find "domain" = some (.string g.domain) := by simp [toJson]
  have hrequired : g.toJson.readU64 "required_available" = g.requiredAvailable := by
    simp [toJson]
  have hpaths : g.toJson.findArray "paths" = some (g.paths.map JsonValue.string) := by
    simp [toJson]
  simp only [fromJson, bind_eq_ok, pure_eq_ok, rejectIf_eq_ok, orFail_eq_ok,
    readGroupId_eq_ok hid, readDomainId_eq_ok hdomain, hrequired, hpaths, Option.some.injEq,
    exists_eq_left', List.length_map, readMembers_eq_ok]
  constructor
  · rintro ⟨_, -, _, ⟨hslug, rfl⟩, _, ⟨hdom, rfl⟩, _, hreq, _, hsome, _, hbound, _,
      ⟨hslugs, rfl⟩, rfl⟩
    exact ⟨⟨hslug, hdom, hreq, fun hnil => hsome (by rw [hnil]; rfl), Nat.not_lt.mp hbound,
      hslugs⟩, rfl⟩
  · rintro ⟨h, rfl⟩
    exact ⟨(), by simp [toJson], _, ⟨h.id, rfl⟩, _, ⟨h.domain, rfl⟩, (),
      h.required, (), fun hnil => h.nonempty (List.length_eq_zero_iff.mp hnil), (),
      Nat.not_lt.mpr h.bound, _, ⟨h.paths, rfl⟩, rfl⟩

end DiversityGroup

namespace CapacityPool

structure Readable (p : CapacityPool) : Prop where
  id : isValidSlug p.id = true
  domain : IsOptionalSlug p.domain
  nonempty : p.members ≠ []
  bound : p.members.length ≤ maxResources
  members : ∀ id ∈ p.members, isValidSlug id = true

theorem fromJson_eq_ok {p p' : CapacityPool} :
    fromJson p.toJson = .ok p' ↔ p.Readable ∧ p' = p := by
  have hid : p.toJson.find "id" = some (.string p.id) := by simp [toJson]
  have hdomain : p.toJson.find "domain" = some (.string p.domain) := by simp [toJson]
  have hrequired : p.toJson.readU64 "required" = p.required := by
    simp [toJson]
  have hmembers : p.toJson.findArray "members" = some (p.members.map JsonValue.string) := by
    simp [toJson]
  simp only [fromJson, bind_eq_ok, pure_eq_ok, rejectIf_eq_ok, orFail_eq_ok,
    readGroupId_eq_ok hid, readDomainId_eq_ok hdomain, hrequired, hmembers, Option.some.injEq,
    exists_eq_left', List.length_map, readMembers_eq_ok]
  constructor
  · rintro ⟨_, -, _, ⟨hslug, rfl⟩, _, ⟨hdom, rfl⟩, _, hsome, _, hbound, _, ⟨hslugs, rfl⟩, rfl⟩
    exact ⟨⟨hslug, hdom, fun hnil => hsome (by rw [hnil]; rfl), Nat.not_lt.mp hbound, hslugs⟩,
      rfl⟩
  · rintro ⟨h, rfl⟩
    exact ⟨(), by simp [toJson], _, ⟨h.id, rfl⟩, _, ⟨h.domain, rfl⟩, (),
      fun hnil => h.nonempty (List.length_eq_zero_iff.mp hnil), (), Nat.not_lt.mpr h.bound, _,
      ⟨h.members, rfl⟩, rfl⟩

end CapacityPool

namespace ProtectedRoute

structure Readable (r : ProtectedRoute) : Prop where
  id : isValidSlug r.id = true
  domain : IsOptionalSlug r.domain
  origin : isValidSlug r.origin = true
  terminus : isValidSlug r.terminus = true

theorem fromJson_eq_ok {r r' : ProtectedRoute} :
    fromJson r.toJson = .ok r' ↔ r.Readable ∧ r' = r := by
  have hid : r.toJson.find "id" = some (.string r.id) := by simp [toJson]
  have hdomain : r.toJson.find "domain" = some (.string r.domain) := by simp [toJson]
  have horigin : r.toJson.find "origin" = some (.string r.origin) := by simp [toJson]
  have hterminus : r.toJson.find "terminus" = some (.string r.terminus) := by simp [toJson]
  simp only [fromJson, bind_eq_ok, pure_eq_ok, rejectIf_eq_ok, mapError_eq_ok,
    readGroupId_eq_ok hid, readDomainId_eq_ok hdomain, readResourceId_eq_ok horigin,
    readResourceId_eq_ok hterminus]
  constructor
  · rintro ⟨_, -, _, ⟨hslug, rfl⟩, _, ⟨hdom, rfl⟩, _, ⟨ho, rfl⟩, _, ⟨ht, rfl⟩, rfl⟩
    exact ⟨⟨hslug, hdom, ho, ht⟩, rfl⟩
  · rintro ⟨h, rfl⟩
    exact ⟨(), by simp [toJson], _, ⟨h.id, rfl⟩, _, ⟨h.domain, rfl⟩, _,
      ⟨h.origin, rfl⟩, _, ⟨h.terminus, rfl⟩, rfl⟩

end ProtectedRoute

namespace Topology

/-! ### Edges -/

theorem mem_insertSorted {peer : ResourceId} : x ∈ insertSorted peer row ↔ x = peer ∨ x ∈ row := by
  induction row with
  | nil => simp [insertSorted]
  | cons p rest ih =>
    rw [insertSorted]
    split_ifs with hlt heq
    · rw [List.mem_cons, ih, List.mem_cons]
      exact or_left_comm
    · rw [heq]
      exact ⟨Or.inr, fun h => h.elim (fun hx => hx ▸ List.mem_cons_self) (fun hx => hx)⟩
    · exact List.mem_cons

theorem insertSorted_sorted {peer : ResourceId} (h : row.Pairwise (· < ·)) :
    (insertSorted peer row).Pairwise (· < ·) := by
  induction row with
  | nil => exact List.pairwise_singleton _ _
  | cons p rest ih =>
    obtain ⟨hfirst, hrest⟩ := List.pairwise_cons.mp h
    rw [insertSorted]
    split_ifs with hlt heq
    · refine List.pairwise_cons.mpr ⟨fun x hx => ?_, ih hrest⟩
      rcases mem_insertSorted.mp hx with rfl | hold
      · exact hlt
      · exact hfirst x hold
    · exact h
    · have hlt' : peer < p := lt_of_le_of_ne (not_lt.mp hlt) (Ne.symm heq)
      refine List.pairwise_cons.mpr ⟨fun x hx => ?_, h⟩
      rcases List.mem_cons.mp hx with rfl | hold
      · exact hlt'
      · exact hlt'.trans (hfirst x hold)

/-- What `add_edge` writes. -/
def link (t : Topology) (a b : ResourceId) : Topology :=
  let left := OrdMap.set t.adjacency a (insertSorted b (t.neighbors a))
  { t with adjacency := OrdMap.set left b (insertSorted a ((OrdMap.get? left b).getD [])) }

theorem addEdge_eq_ok {t t' : Topology} :
    t.addEdge a b = .ok t' ↔
      a ≠ b ∧ (t.resource a).isSome = true ∧ (t.resource b).isSome = true ∧ t' = t.link a b := by
  simp only [addEdge, bind_eq_ok, pure_eq_ok, rejectIf_eq_ok, exists_const, not_or,
    Option.isNone_iff_eq_none, ← Option.isSome_iff_ne_none, ← ne_eq]
  constructor
  · rintro ⟨hne, ⟨ha, hb⟩, rfl⟩
    exact ⟨hne, ha, hb, rfl⟩
  · rintro ⟨hne, ha, hb, rfl⟩
    exact ⟨hne, ⟨ha, hb⟩, rfl⟩

theorem neighbors_link {t : Topology} (hne : a ≠ b) (x : ResourceId) :
    (t.link a b).neighbors x =
      if b = x then insertSorted a (t.neighbors b)
      else if a = x then insertSorted b (t.neighbors a) else t.neighbors x := by
  unfold neighbors link
  rw [OrdMap.get?_set, OrdMap.get?_set_of_ne hne]
  split_ifs with hb ha
  · rfl
  · rw [OrdMap.get?_set, if_pos ha]
    rfl
  · rw [OrdMap.get?_set, if_neg ha]

theorem mem_neighbors_link {t : Topology} (hne : a ≠ b) :
    y ∈ (t.link a b).neighbors x ↔
      y ∈ t.neighbors x ∨ (x, y) = (a, b) ∨ (y, x) = (a, b) := by
  rw [neighbors_link hne, Prod.mk.injEq, Prod.mk.injEq]
  split_ifs with hb ha
  · subst hb
    rw [mem_insertSorted]
    constructor
    · intro h
      exact h.elim (fun hy => Or.inr (Or.inr ⟨hy, rfl⟩)) Or.inl
    · intro h
      rcases h with hold | ⟨hx, -⟩ | ⟨hy, -⟩
      · exact Or.inr hold
      · exact absurd hx.symm hne
      · exact Or.inl hy
  · subst ha
    rw [mem_insertSorted]
    constructor
    · intro h
      exact h.elim (fun hy => Or.inr (Or.inl ⟨rfl, hy⟩)) Or.inl
    · intro h
      rcases h with hold | ⟨-, hy⟩ | ⟨-, hx⟩
      · exact Or.inr hold
      · exact Or.inl hy
      · exact absurd hx.symm hb
  · constructor
    · exact Or.inl
    · intro h
      rcases h with hold | ⟨hx, -⟩ | ⟨-, hx⟩
      · exact hold
      · exact absurd hx.symm ha
      · exact absurd hx.symm hb

/-- The rows are sorted and there is no empty one. -/
def Tidy (t : Topology) : Prop :=
  ∀ id row, OrdMap.get? t.adjacency id = some row → row ≠ [] ∧ row.Pairwise (· < ·)

theorem Tidy.sorted {t : Topology} (h : t.Tidy) (id : ResourceId) :
    (t.neighbors id).Pairwise (· < ·) := by
  unfold neighbors
  cases hrow : OrdMap.get? t.adjacency id with
  | none => exact .nil
  | some row => exact (h id row hrow).2

theorem Tidy.link {t : Topology} (h : t.Tidy) (hne : a ≠ b) : (t.link a b).Tidy := by
  have hinsert : ∀ peer id, insertSorted peer (t.neighbors id) ≠ [] ∧
      (insertSorted peer (t.neighbors id)).Pairwise (· < ·) := by
    intro peer id
    refine ⟨fun hnil => ?_, insertSorted_sorted (h.sorted id)⟩
    have hmem : peer ∈ insertSorted peer (t.neighbors id) := mem_insertSorted.mpr (Or.inl rfl)
    rw [hnil] at hmem
    cases hmem
  intro id row hrow
  unfold Topology.link at hrow
  dsimp only at hrow
  rw [OrdMap.get?_set, OrdMap.get?_set_of_ne hne] at hrow
  split_ifs at hrow with hb
  · obtain rfl := Option.some.inj hrow
    exact hinsert a b
  · rw [OrdMap.get?_set] at hrow
    split_ifs at hrow with ha
    · obtain rfl := Option.some.inj hrow
      exact hinsert b a
    · exact h id row hrow

/-- A tidy adjacency is determined by its links. -/
theorem adjacency_ext {t t' : Topology} (h : t.Tidy) (h' : t'.Tidy)
    (hlinks : ∀ x y, y ∈ t.neighbors x ↔ y ∈ t'.neighbors x) : t.adjacency = t'.adjacency := by
  have hrows : ∀ x, t.neighbors x = t'.neighbors x :=
    fun x => (h.sorted x).eq_of_mem_iff (h'.sorted x) (hlinks x)
  refine OrdMap.ext_get? (fun x => ?_)
  have hx := hrows x
  unfold neighbors at hx
  cases hrow : OrdMap.get? t.adjacency x with
  | none =>
    cases hrow' : OrdMap.get? t'.adjacency x with
    | none => rfl
    | some row' =>
      rw [hrow, hrow'] at hx
      exact absurd hx.symm (h' x row' hrow').1
  | some row =>
    cases hrow' : OrdMap.get? t'.adjacency x with
    | none =>
      rw [hrow, hrow'] at hx
      exact absurd hx (h x row hrow).1
    | some row' =>
      rw [hrow, hrow'] at hx
      exact congrArg some hx

/-- How `add_edge` leaves the adjacency. -/
structure Meshed (t : Topology) : Prop where
  tidy : t.Tidy
  symm : ∀ x y, y ∈ t.neighbors x → x ∈ t.neighbors y
  irrefl : ∀ x, x ∉ t.neighbors x
  known : ∀ x y, y ∈ t.neighbors x → (t.resource x).isSome = true

theorem meshed_empty : Meshed {} :=
  ⟨fun _ _ h => (by cases h), fun _ _ h => (by cases h), fun _ h => (by cases h),
    fun _ _ h => (by cases h)⟩

/-- Only the adjacency and which resources there are matter. -/
theorem Meshed.congr {t t' : Topology} (h : t.Meshed) (hadjacency : t'.adjacency = t.adjacency)
    (hknown : ∀ id, (t.resource id).isSome = true → (t'.resource id).isSome = true) :
    t'.Meshed := by
  have hneighbors : ∀ x, t'.neighbors x = t.neighbors x := fun x => by
    rw [neighbors, neighbors, hadjacency]
  refine ⟨fun id row hrow => ?_, fun x y hy => ?_, fun x hx => ?_, fun x y hy => ?_⟩
  · rw [hadjacency] at hrow
    exact h.tidy id row hrow
  · rw [hneighbors] at hy ⊢
    exact h.symm x y hy
  · rw [hneighbors] at hx
    exact h.irrefl x hx
  · rw [hneighbors] at hy
    exact hknown x (h.known x y hy)

theorem Meshed.link {t : Topology} (h : t.Meshed) (hne : a ≠ b)
    (ha : (t.resource a).isSome = true) (hb : (t.resource b).isSome = true) :
    (t.link a b).Meshed := by
  refine ⟨h.tidy.link hne, fun x y hy => ?_, fun x hx => ?_, fun x y hy => ?_⟩
  · rw [mem_neighbors_link hne] at hy ⊢
    rcases hy with hold | hforth | hback
    · exact Or.inl (h.symm x y hold)
    · exact Or.inr (Or.inr hforth)
    · exact Or.inr (Or.inl hback)
  · rcases (mem_neighbors_link hne).mp hx with hold | hself | hself
    · exact h.irrefl x hold
    all_goals
      obtain ⟨rfl, hab⟩ := Prod.mk.inj hself
      exact hne hab
  · rcases (mem_neighbors_link hne).mp hy with hold | hforth | hback
    · exact h.known x y hold
    · obtain ⟨rfl, -⟩ := Prod.mk.inj hforth
      exact ha
    · obtain ⟨-, rfl⟩ := Prod.mk.inj hback
      exact hb

theorem mem_edgeList {t : Topology} : (x, y) ∈ t.edgeList ↔ y ∈ t.neighbors x ∧ ¬ y < x := by
  simp only [edgeList, List.mem_flatMap, List.mem_map, List.mem_filter, decide_eq_true_eq,
    Prod.mk.injEq, Prod.exists]
  constructor
  · rintro ⟨source, peers, hrow, peer, ⟨hpeer, hlt⟩, rfl, rfl⟩
    refine ⟨?_, hlt⟩
    rw [neighbors, OrdMap.get?_eq_some_iff.mpr hrow]
    exact hpeer
  · rintro ⟨hy, hlt⟩
    unfold neighbors at hy
    cases hrow : OrdMap.get? t.adjacency x with
    | none =>
      rw [hrow] at hy
      cases hy
    | some row =>
      rw [hrow] at hy
      exact ⟨x, row, OrdMap.get?_eq_some_iff.mp hrow, y, ⟨hy, hlt⟩, rfl, rfl⟩

/-- Every edge of a meshed adjacency is written from one of its ends. -/
theorem Meshed.mem_neighbors {t : Topology} (h : t.Meshed) :
    y ∈ t.neighbors x ↔ (x, y) ∈ t.edgeList ∨ (y, x) ∈ t.edgeList := by
  rw [mem_edgeList, mem_edgeList]
  constructor
  · intro hy
    by_cases hlt : y < x
    · exact Or.inr ⟨h.symm x y hy, hlt.asymm⟩
    · exact Or.inl ⟨hy, hlt⟩
  · rintro (⟨hy, -⟩ | ⟨hx, -⟩)
    · exact hy
    · exact h.symm y x hx

/-- Adding a list of edges. -/
def linkAll (t : Topology) (edges : List (ResourceId × ResourceId)) : Topology :=
  edges.foldl (fun t edge => t.link edge.1 edge.2) t

theorem linkAll_spec {t : Topology} (h : t.Tidy) {edges : List (ResourceId × ResourceId)}
    (hedges : ∀ edge ∈ edges, edge.1 ≠ edge.2) :
    (t.linkAll edges).Tidy ∧
      (∀ x y, y ∈ (t.linkAll edges).neighbors x ↔
        y ∈ t.neighbors x ∨ (x, y) ∈ edges ∨ (y, x) ∈ edges) ∧
      t.linkAll edges = { t with adjacency := (t.linkAll edges).adjacency } := by
  induction edges generalizing t with
  | nil => exact ⟨h, fun x y => by simp [linkAll], rfl⟩
  | cons edge rest ih =>
    obtain ⟨hne, hrest⟩ := List.forall_mem_cons.mp hedges
    obtain ⟨htidy, hlinks, hframe⟩ := ih (h.link hne) hrest
    refine ⟨htidy, fun x y => ?_, hframe⟩
    rw [linkAll, List.foldl_cons, ← linkAll, hlinks, mem_neighbors_link hne, List.mem_cons,
      List.mem_cons, or_assoc]
    refine or_congr_right ?_
    exact or_or_or_comm

/-- Adding the edges of a meshed topology rebuilds its adjacency. -/
theorem Meshed.linkAll_edgeList {t s : Topology} (h : t.Meshed)
    (hs : s.adjacency = Table.empty Prod.fst) :
    s.linkAll t.edgeList = { s with adjacency := t.adjacency } := by
  have hnone : ∀ x, s.neighbors x = [] := fun x => by rw [neighbors, hs]; rfl
  have htidy : s.Tidy := fun id row hrow => by rw [hs] at hrow; cases hrow
  have hedges : ∀ edge ∈ t.edgeList, edge.1 ≠ edge.2 := by
    rintro ⟨x, y⟩ hmem heq
    dsimp only at heq
    rw [mem_edgeList, heq] at hmem
    exact h.irrefl y hmem.1
  obtain ⟨htidy', hlinks, hframe⟩ := linkAll_spec htidy hedges
  rw [hframe, adjacency_ext htidy' h.tidy (fun x y => ?_)]
  rw [hlinks, hnone, h.mem_neighbors]
  simp

/-- There are at most as many rows as resources, and none is longer. -/
theorem Meshed.length_edgeList_le {t : Topology} (h : t.Meshed) :
    t.edgeList.length ≤ t.resources.size * t.resources.size := by
  have hkeys : ∀ ids : List ResourceId, ids.Nodup → (∀ id ∈ ids, (t.resource id).isSome = true) →
      ids.length ≤ t.resources.size := by
    intro ids hnodup hknown
    have hsubset : ids ⊆ t.resources.keys := fun id hid =>
      Table.mem_keys_iff.mpr (Option.isSome_iff_exists.mp (hknown id hid))
    have hle := (hnodup.subperm hsubset).length_le
    rwa [Table.keys, List.length_map] at hle
  have hrow : ∀ p ∈ t.adjacency.toList, ∀ peer ∈ p.2, peer ∈ t.neighbors p.1 := by
    intro p hp peer hpeer
    rw [neighbors, OrdMap.get?_eq_some_iff.mpr hp]
    exact hpeer
  have hrows : t.adjacency.toList.length ≤ t.resources.size := by
    have hle := hkeys (t.adjacency.toList.map Prod.fst)
      (List.Pairwise.map _ (fun _ _ hlt => hlt.ne) t.adjacency.sorted) ?_
    · rwa [List.length_map] at hle
    · intro id hid
      obtain ⟨p, hp, rfl⟩ := List.mem_map.mp hid
      obtain ⟨peer, hpeer⟩ := List.exists_mem_of_ne_nil _
        (h.tidy p.1 p.2 (OrdMap.get?_eq_some_iff.mpr hp)).1
      exact h.known p.1 peer (hrow p hp peer hpeer)
  have hlengths : ∀ n ∈ t.adjacency.toList.map (fun p =>
      ((p.2.filter (fun peer => ¬ peer < p.1)).map (fun peer => (p.1, peer))).length),
      n ≤ t.resources.size := by
    intro n hn
    obtain ⟨p, hp, rfl⟩ := List.mem_map.mp hn
    rw [List.length_map]
    refine (List.length_filter_le _ _).trans (hkeys p.2 ?_ fun peer hpeer => ?_)
    · exact (h.tidy p.1 p.2 (OrdMap.get?_eq_some_iff.mpr hp)).2.imp (fun hlt => hlt.ne)
    · exact h.known peer p.1 (h.symm p.1 peer (hrow p hp peer hpeer))
  calc t.edgeList.length
      = (t.adjacency.toList.map (fun p =>
          ((p.2.filter (fun peer => ¬ peer < p.1)).map (fun peer => (p.1, peer))).length)).sum :=
        List.length_flatMap
    _ ≤ t.adjacency.toList.length * t.resources.size := by
        have hsum := List.sum_le_card_nsmul _ _ hlengths
        rwa [List.length_map, smul_eq_mul] at hsum
    _ ≤ t.resources.size * t.resources.size := Nat.mul_le_mul_right _ hrows

/-! ### The whole topology -/

structure Readable (t : Topology) : Prop where
  resources : ∀ node ∈ t.resources.toList, node.target.Readable
  paths : ∀ path ∈ t.paths.toList, path.Readable
  groups : ∀ group ∈ t.diversityGroups.toList, group.Readable
  pools : ∀ pool ∈ t.capacityPools.toList, pool.Readable
  routes : ∀ route ∈ t.protectedRoutes, route.Readable

/-- What the add operations have checked. -/
structure Bounded (t : Topology) : Prop where
  resources : t.resources.size ≤ maxResources
  paths : t.paths.size ≤ maxPaths
  groups : t.diversityGroups.size ≤ maxGroups
  satisfiable : ∀ group ∈ t.diversityGroups.toList, group.requiredAvailable ≤ group.paths.length
  pools : t.capacityPools.size ≤ maxGroups
  routes : t.protectedRoutes.length ≤ maxProtectedRoutes
  distinct : t.protectedRoutes.Pairwise (fun r r' => r.id ≠ r'.id)
  ends : ∀ route ∈ t.protectedRoutes, route.origin ≠ route.terminus

/-- What holds of a topology that the operations have built. -/
structure Sound (t : Topology) : Prop extends t.Meshed, t.Bounded

theorem loadOptional_eq_ok {items : List JsonValue} (hfind : value.findArray key = some items)
    {bound : Nat} (hbound : items.length ≤ bound) {noun : String}
    {step : Topology → JsonValue → Result Topology} {s s' : Topology} :
    loadOptional value key bound noun step s = .ok s' ↔ items.foldlM step s = .ok s' := by
  simp only [loadOptional, hfind, bind_eq_ok, rejectIf_eq_ok]
  exact ⟨fun h => h.elim fun _ h => h.2, fun h => ⟨(), Nat.not_lt.mpr hbound, h⟩⟩

theorem loadResource_eq_ok {s s' : Topology} {node : ResourceNode} :
    loadEntry "resource entry" ResourceNode.fromJson addResource s node.toJson = .ok s' ↔
      node.target.Readable ∧ s.resources.size < maxResources ∧
        s.resources.find? node.id = none ∧
        s' = { s with resources := s.resources.put node } := by
  simp only [loadEntry, bind_eq_ok, mapError_eq_ok, ResourceNode.fromJson_eq_ok, addResource_eq_ok]
  constructor
  · rintro ⟨_, ⟨hreadable, rfl⟩, -, hroom, hfree, rfl⟩
    exact ⟨hreadable, hroom, hfree, rfl⟩
  · rintro ⟨hreadable, hroom, hfree, rfl⟩
    exact ⟨node, ⟨hreadable, rfl⟩, isEmpty_of_isValidSlug hreadable.1, hroom, hfree, rfl⟩

/-- A restart recovers every resource as it was. -/
theorem loadFromJson_toJson {t t' : Topology} (h : loadFromJson t.toJson = .ok t') :
    t'.resources = t.resources := by
  simp only [loadFromJson, bind_eq_ok, orFail_eq_ok] at h
  obtain ⟨_, -, items, hitems, _, -, staged, hresources, afterPaths, hpaths, afterEdges, hedges,
    afterGroups, hgroups, afterPools, hpools, hroutes⟩ := h
  obtain rfl : t.resources.toList.map ResourceNode.toJson = items := by
    simpa [toJson] using hitems
  have hload : staged.resources = t.resources.mapVals id (fun _ => rfl) :=
    Table.foldlM_put Topology.resources (fun _ => rfl)
      (fun _ _ _ hs => by rw [(loadResource_eq_ok.mp hs).2.2.2]) rfl hresources
  calc t'.resources
      = afterPools.resources := resources_loadOptional
          (fun _ _ _ => resources_loadEntry (fun _ _ _ => resources_addProtectedRoute)) hroutes
    _ = afterGroups.resources := resources_loadOptional
          (fun _ _ _ => resources_loadEntry (fun _ _ _ => resources_addCapacityPool)) hpools
    _ = afterEdges.resources := resources_loadOptional
          (fun _ _ _ => resources_loadEntry (fun _ _ _ => resources_addDiversityGroup)) hgroups
    _ = afterPaths.resources := resources_loadOptional (fun _ _ _ => resources_loadEdge) hedges
    _ = staged.resources := resources_loadOptional
          (fun _ _ _ => resources_loadEntry (fun _ _ _ => resources_addPath)) hpaths
    _ = t.resources := hload.trans (Table.mapVals_id _)

theorem loadPath_eq_ok {s s' : Topology} {path : FabricPath} :
    loadEntry "path entry" FabricPath.fromJson addPath s path.toJson = .ok s' ↔
      path.Readable ∧ s.paths.size < maxPaths ∧ s.paths.find? path.id = none ∧
        s' = { s with paths := s.paths.put path } := by
  simp only [loadEntry, bind_eq_ok, mapError_eq_ok, FabricPath.fromJson_eq_ok, addPath_eq_ok]
  constructor
  · rintro ⟨_, ⟨hreadable, rfl⟩, -, -, -, hroom, -, hfree, rfl⟩
    exact ⟨hreadable, hroom, hfree, rfl⟩
  · rintro ⟨hreadable, hroom, hfree, rfl⟩
    exact ⟨path, ⟨hreadable, rfl⟩, isEmpty_of_isValidSlug hreadable.id, hreadable.nonempty,
      hreadable.bound, hroom, hreadable.nodup, hfree, rfl⟩

theorem loadGroup_eq_ok {s s' : Topology} {group : DiversityGroup} :
    loadEntry "diversity group" DiversityGroup.fromJson addDiversityGroup s group.toJson = .ok s' ↔
      (group.Readable ∧ group.requiredAvailable ≤ group.paths.length) ∧
        s.diversityGroups.size < maxGroups ∧ s.diversityGroups.find? group.id = none ∧
        s' = { s with diversityGroups := s.diversityGroups.put group } := by
  simp only [loadEntry, bind_eq_ok, mapError_eq_ok, DiversityGroup.fromJson_eq_ok,
    addDiversityGroup_eq_ok]
  constructor
  · rintro ⟨_, ⟨hreadable, rfl⟩, -, -, -, hrange, hroom, hfree, rfl⟩
    exact ⟨⟨hreadable, hrange⟩, hroom, hfree, rfl⟩
  · rintro ⟨⟨hreadable, hrange⟩, hroom, hfree, rfl⟩
    exact ⟨group, ⟨hreadable, rfl⟩, isEmpty_of_isValidSlug hreadable.id, hreadable.nonempty,
      hreadable.required, hrange, hroom, hfree, rfl⟩

theorem loadPool_eq_ok {s s' : Topology} {pool : CapacityPool} :
    loadEntry "capacity pool" CapacityPool.fromJson addCapacityPool s pool.toJson = .ok s' ↔
      pool.Readable ∧ s.capacityPools.size < maxGroups ∧ s.capacityPools.find? pool.id = none ∧
        s' = { s with capacityPools := s.capacityPools.put pool } := by
  simp only [loadEntry, bind_eq_ok, mapError_eq_ok, CapacityPool.fromJson_eq_ok,
    addCapacityPool_eq_ok]
  constructor
  · rintro ⟨_, ⟨hreadable, rfl⟩, -, -, hroom, hfree, rfl⟩
    exact ⟨hreadable, hroom, hfree, rfl⟩
  · rintro ⟨hreadable, hroom, hfree, rfl⟩
    exact ⟨pool, ⟨hreadable, rfl⟩, isEmpty_of_isValidSlug hreadable.id, hreadable.nonempty, hroom,
      hfree, rfl⟩

theorem loadEdge_eq_ok {s s' : Topology} :
    loadEdge s (.object [("from", .string a), ("to", .string b)]) = .ok s' ↔
      (isValidSlug a = true ∧ isValidSlug b = true) ∧ a ≠ b ∧ (s.resource a).isSome = true ∧
        (s.resource b).isSome = true ∧ s' = s.link a b := by
  have hfrom : (JsonValue.object [("from", .string a), ("to", .string b)]).find "from" =
      some (.string a) := by simp
  have hto : (JsonValue.object [("from", .string a), ("to", .string b)]).find "to" =
      some (.string b) := by simp
  simp only [loadEdge, bind_eq_ok, mapError_eq_ok, readResourceId_eq_ok hfrom,
    readResourceId_eq_ok hto, addEdge_eq_ok]
  constructor
  · rintro ⟨_, ⟨ha, rfl⟩, _, ⟨hb, rfl⟩, h⟩
    exact ⟨⟨ha, hb⟩, h⟩
  · rintro ⟨⟨ha, hb⟩, h⟩
    exact ⟨a, ⟨ha, rfl⟩, b, ⟨hb, rfl⟩, h⟩

theorem loadRoute_eq_ok {s s' : Topology} {route : ProtectedRoute} :
    loadEntry "protected route" ProtectedRoute.fromJson addProtectedRoute s route.toJson = .ok s' ↔
      route.Readable ∧ route.origin ≠ route.terminus ∧
        s.protectedRoutes.length < maxProtectedRoutes ∧
        (∀ r ∈ s.protectedRoutes, r.id ≠ route.id) ∧
        s' = { s with protectedRoutes := s.protectedRoutes ++ [route] } := by
  simp only [loadEntry, bind_eq_ok, mapError_eq_ok, ProtectedRoute.fromJson_eq_ok,
    addProtectedRoute_eq_ok]
  constructor
  · rintro ⟨_, ⟨hreadable, rfl⟩, -, hends, hroom, hnew, rfl⟩
    exact ⟨hreadable, hends, hroom, hnew, rfl⟩
  · rintro ⟨hreadable, hends, hroom, hnew, rfl⟩
    exact ⟨route, ⟨hreadable, rfl⟩, isEmpty_of_isValidSlug hreadable.id, hends, hroom, hnew, rfl⟩

/-- Reading the edges back. -/
theorem loadEdges_eq_ok {t s s' : Topology} (hmeshed : t.Meshed)
    (hs : s.adjacency = Table.empty Prod.fst) (hresources : s.resources = t.resources) :
    (t.edgeList.map (fun edge : ResourceId × ResourceId =>
        JsonValue.object [("from", .string edge.1), ("to", .string edge.2)])).foldlM loadEdge s =
          .ok s' ↔
      (∀ edge ∈ t.edgeList, isValidSlug edge.1 = true ∧ isValidSlug edge.2 = true) ∧
        s' = { s with adjacency := t.adjacency } := by
  rw [foldlM_map_eq_ok (g := fun s (edge : ResourceId × ResourceId) => s.link edge.1 edge.2)
    (R := fun edge => isValidSlug edge.1 = true ∧ isValidSlug edge.2 = true)
    (I := fun s rest => s.resources = t.resources ∧ ∀ edge ∈ rest, edge ∈ t.edgeList) ?_ ?_
    ⟨hresources, fun _ h => h⟩]
  · rw [← hmeshed.linkAll_edgeList hs]
    rfl
  · rintro s edge rest s' ⟨hsame, hmem⟩
    have hedge : edge.2 ∈ t.neighbors edge.1 :=
      (mem_edgeList.mp (hmem edge List.mem_cons_self)).1
    have hne : edge.1 ≠ edge.2 := fun heq => hmeshed.irrefl edge.2 (heq ▸ hedge)
    rw [loadEdge_eq_ok]
    have hknown : ∀ id, (s.resource id).isSome = (t.resource id).isSome := fun id => by
      rw [resource, resource, hsame]
    rw [hknown, hknown]
    exact ⟨fun h => ⟨h.1, h.2.2.2.2⟩, fun h => ⟨h.1, hne, hmeshed.known _ _ hedge,
      hmeshed.known _ _ (hmeshed.symm _ _ hedge), h.2⟩⟩
  · rintro s edge rest ⟨hsame, hmem⟩
    exact ⟨hsame, fun e he => hmem e (List.mem_cons_of_mem _ he)⟩

/-- Reading the protected routes back. -/
theorem loadRoutes_eq_ok {t s s' : Topology} (hbounded : t.Bounded) (hs : s.protectedRoutes = []) :
    (t.protectedRoutes.map ProtectedRoute.toJson).foldlM
        (loadEntry "protected route" ProtectedRoute.fromJson addProtectedRoute) s = .ok s' ↔
      (∀ route ∈ t.protectedRoutes, route.Readable) ∧
        s' = { s with protectedRoutes := t.protectedRoutes } := by
  have hloop : ∀ (l : List ProtectedRoute) (s : Topology),
      l.foldl (fun s route => { s with protectedRoutes := s.protectedRoutes ++ [route] }) s =
        { s with protectedRoutes := s.protectedRoutes ++ l } := by
    intro l
    induction l with
    | nil =>
      intro s
      rw [List.append_nil]
      rfl
    | cons route rest ih =>
      intro s
      rw [List.foldl_cons, ih]
      simp
  rw [foldlM_map_eq_ok
    (g := fun s route => { s with protectedRoutes := s.protectedRoutes ++ [route] })
    (R := ProtectedRoute.Readable)
    (I := fun s rest => s.protectedRoutes ++ rest = t.protectedRoutes) ?_ ?_ ?_, hloop, hs,
    List.nil_append]
  · intro s route rest s' hsplit
    have hdistinct := hbounded.distinct
    have hlength := hbounded.routes
    rw [← hsplit] at hdistinct hlength
    rw [List.length_append, List.length_cons] at hlength
    have hnew : ∀ r ∈ s.protectedRoutes, r.id ≠ route.id := fun r hr =>
      (List.pairwise_append.mp hdistinct).2.2 r hr route List.mem_cons_self
    have hends := hbounded.ends route
      (hsplit ▸ List.mem_append_right _ List.mem_cons_self)
    rw [loadRoute_eq_ok]
    exact ⟨fun h => ⟨h.1, h.2.2.2.2⟩, fun h => ⟨h.1, hends, by omega, hnew, h.2⟩⟩
  · intro s route rest hsplit
    rw [← hsplit]
    simp
  · rw [hs, List.nil_append]

section Tables

variable {t s s' : Topology}

theorem loadResources_eq_ok (hbounded : t.Bounded)
    (hs : s.resources = Table.empty ResourceNode.id) :
    (t.resources.toList.map ResourceNode.toJson).foldlM
        (loadEntry "resource entry" ResourceNode.fromJson addResource) s = .ok s' ↔
      (∀ node ∈ t.resources.toList, node.target.Readable) ∧
        s' = { s with resources := t.resources } :=
  Table.foldlM_field_eq_ok Topology.resources (fun s resources => { s with resources })
    (fun _ _ => rfl) (fun _ => rfl) (fun _ _ _ => rfl) (fun _ _ _ => loadResource_eq_ok)
    hbounded.resources hs

theorem loadPaths_eq_ok (hbounded : t.Bounded) (hs : s.paths = Table.empty FabricPath.id) :
    (t.paths.toList.map FabricPath.toJson).foldlM
        (loadEntry "path entry" FabricPath.fromJson addPath) s = .ok s' ↔
      (∀ path ∈ t.paths.toList, path.Readable) ∧ s' = { s with paths := t.paths } :=
  Table.foldlM_field_eq_ok Topology.paths (fun s paths => { s with paths })
    (fun _ _ => rfl) (fun _ => rfl) (fun _ _ _ => rfl) (fun _ _ _ => loadPath_eq_ok)
    hbounded.paths hs

theorem loadGroups_eq_ok (hbounded : t.Bounded)
    (hs : s.diversityGroups = Table.empty DiversityGroup.id) :
    (t.diversityGroups.toList.map DiversityGroup.toJson).foldlM
        (loadEntry "diversity group" DiversityGroup.fromJson addDiversityGroup) s = .ok s' ↔
      (∀ group ∈ t.diversityGroups.toList, group.Readable ∧
        group.requiredAvailable ≤ group.paths.length) ∧
        s' = { s with diversityGroups := t.diversityGroups } :=
  Table.foldlM_field_eq_ok Topology.diversityGroups
    (fun s diversityGroups => { s with diversityGroups })
    (fun _ _ => rfl) (fun _ => rfl) (fun _ _ _ => rfl) (fun _ _ _ => loadGroup_eq_ok)
    hbounded.groups hs

theorem loadPools_eq_ok (hbounded : t.Bounded)
    (hs : s.capacityPools = Table.empty CapacityPool.id) :
    (t.capacityPools.toList.map CapacityPool.toJson).foldlM
        (loadEntry "capacity pool" CapacityPool.fromJson addCapacityPool) s = .ok s' ↔
      (∀ pool ∈ t.capacityPools.toList, pool.Readable) ∧
        s' = { s with capacityPools := t.capacityPools } :=
  Table.foldlM_field_eq_ok Topology.capacityPools (fun s capacityPools => { s with capacityPools })
    (fun _ _ => rfl) (fun _ => rfl) (fun _ _ _ => rfl) (fun _ _ _ => loadPool_eq_ok)
    hbounded.pools hs

end Tables

/-- The ends of an edge are resources, so they can be read when those can. -/
theorem Readable.edges {t : Topology} (h : t.Readable) (hmeshed : t.Meshed) :
    ∀ edge ∈ t.edgeList, isValidSlug edge.1 = true ∧ isValidSlug edge.2 = true := by
  have hslug : ∀ id, (t.resource id).isSome = true → isValidSlug id = true := by
    intro id hknown
    obtain ⟨node, hnode⟩ := Option.isSome_iff_exists.mp hknown
    have hid : node.id = id := Table.key_of_find? hnode
    rw [← hid]
    exact (h.resources node (Table.mem_of_find? hnode)).1
  rintro ⟨x, y⟩ hmem
  have hy := (mem_edgeList.mp hmem).1
  exact ⟨hslug x (hmeshed.known x y hy), hslug y (hmeshed.known y x (hmeshed.symm x y hy))⟩

/-- A topology is read back as it was written, when its entries can be read. -/
theorem loadFromJson_eq_ok {t t' : Topology} (hsound : t.Sound) :
    loadFromJson t.toJson = .ok t' ↔ t.Readable ∧ t' = t := by
  have hmeshed := hsound.toMeshed
  have hbounded := hsound.toBounded
  have hobject : t.toJson.isObject = true := rfl
  have hresources : t.toJson.findArray "resources" =
      some (t.resources.toList.map ResourceNode.toJson) := by simp [toJson]
  have hpaths : t.toJson.findArray "paths" = some (t.paths.toList.map FabricPath.toJson) := by
    simp [toJson]
  have hedges : t.toJson.findArray "edges" = some (t.edgeList.map
      (fun edge : ResourceId × ResourceId =>
        JsonValue.object [("from", .string edge.1), ("to", .string edge.2)])) := by
    simp [toJson]
  have hgroups : t.toJson.findArray "diversity_groups" =
      some (t.diversityGroups.toList.map DiversityGroup.toJson) := by
    simp [toJson]
  have hpools : t.toJson.findArray "capacity_pools" =
      some (t.capacityPools.toList.map CapacityPool.toJson) := by
    simp [toJson]
  have hroutes : t.toJson.findArray "protected_routes" =
      some (t.protectedRoutes.map ProtectedRoute.toJson) := by
    simp [toJson]
  have hpathBound : (t.paths.toList.map FabricPath.toJson).length ≤ maxPaths := by
    rw [List.length_map]
    exact hbounded.paths
  have hedgeBound : (t.edgeList.map (fun edge : ResourceId × ResourceId =>
      JsonValue.object [("from", .string edge.1), ("to", .string edge.2)])).length ≤
        maxResources * maxResources := by
    rw [List.length_map]
    exact hmeshed.length_edgeList_le.trans (Nat.mul_le_mul hbounded.resources hbounded.resources)
  have hgroupBound : (t.diversityGroups.toList.map DiversityGroup.toJson).length ≤ maxGroups := by
    rw [List.length_map]
    exact hbounded.groups
  have hpoolBound : (t.capacityPools.toList.map CapacityPool.toJson).length ≤ maxGroups := by
    rw [List.length_map]
    exact hbounded.pools
  have hrouteBound : (t.protectedRoutes.map ProtectedRoute.toJson).length ≤ maxProtectedRoutes := by
    rw [List.length_map]
    exact hbounded.routes
  simp only [loadFromJson, bind_eq_ok, rejectIf_eq_ok, orFail_eq_ok, hresources, Option.some.injEq,
    exists_eq_left', List.length_map, loadOptional_eq_ok hpaths hpathBound,
    loadOptional_eq_ok hedges hedgeBound, loadOptional_eq_ok hgroups hgroupBound,
    loadOptional_eq_ok hpools hpoolBound, loadOptional_eq_ok hroutes hrouteBound]
  constructor
  · rintro ⟨_, -, _, -, s₁, h₁, s₂, h₂, s₃, h₃, s₄, h₄, s₅, h₅, h₆⟩
    obtain ⟨hnodes, rfl⟩ := (loadResources_eq_ok hbounded (by rfl)).mp h₁
    obtain ⟨hpath, rfl⟩ := (loadPaths_eq_ok hbounded (by rfl)).mp h₂
    obtain ⟨-, rfl⟩ := (loadEdges_eq_ok hmeshed (by rfl) (by rfl)).mp h₃
    obtain ⟨hgroup, rfl⟩ := (loadGroups_eq_ok hbounded (by rfl)).mp h₄
    obtain ⟨hpool, rfl⟩ := (loadPools_eq_ok hbounded (by rfl)).mp h₅
    obtain ⟨hroute, rfl⟩ := (loadRoutes_eq_ok hbounded (by rfl)).mp h₆
    exact ⟨⟨hnodes, hpath, fun group hmem => (hgroup group hmem).1, hpool, hroute⟩, rfl⟩
  · rintro ⟨h, rfl⟩
    exact ⟨(), not_not.mpr hobject, (), Nat.not_lt.mpr hbounded.resources,
      _, (loadResources_eq_ok hbounded (by rfl)).mpr ⟨h.resources, rfl⟩,
      _, (loadPaths_eq_ok hbounded (by rfl)).mpr ⟨h.paths, rfl⟩,
      _, (loadEdges_eq_ok hmeshed (by rfl) (by rfl)).mpr ⟨h.edges hmeshed, rfl⟩,
      _, (loadGroups_eq_ok hbounded (by rfl)).mpr
        ⟨fun group hmem => ⟨h.groups group hmem, hbounded.satisfiable group hmem⟩, rfl⟩,
      _, (loadPools_eq_ok hbounded (by rfl)).mpr ⟨h.pools, rfl⟩,
      (loadRoutes_eq_ok hbounded (by rfl)).mpr ⟨h.routes, rfl⟩⟩

/-! ### What the operations keep -/

theorem sound_empty : Sound {} where
  toMeshed := meshed_empty
  toBounded := ⟨Nat.zero_le _, Nat.zero_le _, Nat.zero_le _, fun _ h => (by cases h), Nat.zero_le _,
    Nat.zero_le _, .nil, fun _ h => (by cases h)⟩

section Operations

variable {t t' : Topology}

theorem Sound.addResource {node : ResourceNode} (h : t.Sound) (hadd : t.addResource node = .ok t') :
    t'.Sound := by
  obtain ⟨-, hroom, -, rfl⟩ := addResource_eq_ok.mp hadd
  refine ⟨h.toMeshed.congr rfl (fun id hknown => ?_), { h.toBounded with resources := ?_ }⟩
  · show ((t.resources.put node).find? id).isSome = true
    rw [Table.find?_put]
    split_ifs
    · rfl
    · exact hknown
  · exact (Table.size_put_le _ _).trans hroom

theorem Sound.addEdge (h : t.Sound) (hadd : t.addEdge a b = .ok t') : t'.Sound := by
  obtain ⟨hne, ha, hb, rfl⟩ := addEdge_eq_ok.mp hadd
  exact ⟨h.toMeshed.link hne ha hb, { h.toBounded with }⟩

theorem Sound.addPath {path : FabricPath} (h : t.Sound) (hadd : t.addPath path = .ok t') :
    t'.Sound := by
  obtain ⟨-, -, -, hroom, -, -, rfl⟩ := addPath_eq_ok.mp hadd
  exact ⟨h.toMeshed.congr rfl fun _ hknown => hknown,
    { h.toBounded with paths := (Table.size_put_le _ _).trans hroom }⟩

theorem Sound.addDiversityGroup {group : DiversityGroup} (h : t.Sound)
    (hadd : t.addDiversityGroup group = .ok t') : t'.Sound := by
  obtain ⟨-, -, -, hrange, hroom, -, rfl⟩ := addDiversityGroup_eq_ok.mp hadd
  exact ⟨h.toMeshed.congr rfl fun _ hknown => hknown,
    { h.toBounded with groups := (Table.size_put_le _ _).trans hroom
                       satisfiable := Table.forall_put h.satisfiable hrange }⟩

theorem Sound.addCapacityPool {pool : CapacityPool} (h : t.Sound)
    (hadd : t.addCapacityPool pool = .ok t') : t'.Sound := by
  obtain ⟨-, -, hroom, -, rfl⟩ := addCapacityPool_eq_ok.mp hadd
  exact ⟨h.toMeshed.congr rfl fun _ hknown => hknown,
    { h.toBounded with pools := (Table.size_put_le _ _).trans hroom }⟩

theorem Sound.addProtectedRoute {route : ProtectedRoute} (h : t.Sound)
    (hadd : t.addProtectedRoute route = .ok t') : t'.Sound := by
  obtain ⟨-, hends, hroom, hnew, rfl⟩ := addProtectedRoute_eq_ok.mp hadd
  refine ⟨h.toMeshed.congr rfl fun _ hknown => hknown, { h.toBounded with
    routes := ?_, distinct := ?_, ends := ?_ }⟩
  · rw [List.length_append]
    exact hroom
  · refine List.pairwise_append.mpr ⟨h.distinct, List.pairwise_singleton _ _, ?_⟩
    intro r hr r' hr'
    obtain rfl := List.mem_singleton.mp hr'
    exact hnew r hr
  · exact List.forall_mem_append.mpr ⟨h.ends, List.forall_mem_singleton.mpr hends⟩

theorem Sound.setStatus {status : ResourceStatus} (h : t.Sound)
    (hset : t.setStatus id status = .ok t') : t'.Sound := by
  obtain ⟨node, hnode, rfl⟩ := setStatus_eq_ok.mp hset
  have hkey : (t.resources.find? (ResourceNode.id { node with status })).isSome = true := by
    have hid : node.id = id := Table.key_of_find? hnode
    show (t.resources.find? node.id).isSome = true
    rw [hid]
    exact congrArg Option.isSome hnode
  refine ⟨h.toMeshed.congr rfl (fun id' hknown => ?_), { h.toBounded with resources := ?_ }⟩
  · show ((t.resources.put { node with status }).find? id').isSome = true
    rw [Table.find?_put]
    split_ifs
    · rfl
    · exact hknown
  · exact (Table.size_put_of_mem hkey).trans_le h.resources

end Operations

end Topology

end DrainFabric
