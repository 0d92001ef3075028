import DrainFabric.Codec.Values

/-!
# Names of targets and lists of them

A target is printed as `<kind>:<id>@<domain>`. An identity may contain `:` itself and the
domain may be empty, but no kind contains `:` and no slug contains `@`, so the first of each
separator is the one that was printed.

An obligation keeps its targets sorted, and looks one up by bisection. Decoding sorts them
again, so the order they were given in never matters.

* `target_names_unambiguous` — a name is read as the target it was printed for;
* `dependency_membership` — an obligation depends on the targets it was built from, before
  and after it was written to JSON.
-/

namespace DrainFabric

open Lib

variable {text : String}

/-! ### Names -/

theorem notMem_of_isValidSlug (h : isValidSlug text = true) {c : Char} (hc : isSlugChar c = false) :
    c ∉ text.toList := by
  unfold isValidSlug at h
  simp only [Bool.and_eq_true, List.all_eq_true] at h
  intro hmem
  rw [h.2 c hmem] at hc
  cases hc

namespace DrainTarget

theorem parseOptional_iff {slug : String} :
    parseOptional text = some slug ↔ IsOptionalSlug text ∧ slug = text := by
  unfold parseOptional IsOptionalSlug
  split_ifs with hempty
  · rw [String.isEmpty_iff.mp hempty, Option.some.injEq]
    exact ⟨fun h => ⟨Or.inl rfl, h.symm⟩, fun h => h.2.symm⟩
  · have htext : text ≠ "" := fun h => hempty (String.isEmpty_iff.mpr h)
    simp [htext, parseSlug_iff]

theorem parse_toString {t : DrainTarget} (h : t.Readable) : parse t.toString = some t := by
  have hkind : ':' ∉ t.kind.toString.toList := by cases t.kind <;> decide
  have hid : '@' ∉ t.id.toList := notMem_of_isValidSlug h.1 (by decide)
  have hname : t.toString.toList =
      t.kind.toString.toList ++ ':' :: (t.id.toList ++ '@' :: t.domain.toList) := by
    simp [toString, String.toList_append]
  simp only [parse, hname, cut_append hkind, cut_append hid, Option.bind_eq_bind, Option.bind_some,
    Option.getD_some, String.ofList_toList, TargetKind.fromString_toString,
    parseSlug_iff.mpr ⟨h.1, rfl⟩, parseOptional_iff.mpr ⟨h.2, rfl⟩]
  rfl

/-- Whatever can be read has identities that are accepted. -/
theorem readable_of_parse {t : DrainTarget} (h : parse text = some t) : t.Readable := by
  simp only [parse, Option.bind_eq_bind, Option.bind_eq_some_iff, Option.pure_def,
    Option.some.injEq] at h
  obtain ⟨⟨kindText, rest⟩, -, kind, -, id, hid, domain, hdomain, rfl⟩ := h
  obtain ⟨hslug, rfl⟩ := parseSlug_iff.mp hid
  obtain ⟨hoptional, rfl⟩ := parseOptional_iff.mp hdomain
  exact ⟨hslug, hoptional⟩

end DrainTarget

/-- Printing and parsing are inverse on targets with accepted identities, and parsing yields
no others. -/
theorem target_names_unambiguous :
    (∀ t : DrainTarget, t.Readable → DrainTarget.parse t.toString = some t) ∧
    (∀ t t' : DrainTarget, t.Readable → t'.Readable → t.toString = t'.toString → t = t') ∧
    ∀ text t, DrainTarget.parse text = some t → DrainTarget.parse t.toString = some t := by
  refine ⟨fun t h => DrainTarget.parse_toString h, fun t t' h h' hname => ?_, fun text t h => ?_⟩
  · rw [← Option.some.injEq, ← DrainTarget.parse_toString h, hname, DrainTarget.parse_toString h']
  · exact DrainTarget.parse_toString (DrainTarget.readable_of_parse h)

/-! ### Dependency lists -/

/-- However its other fields were set, an obligation constructed from a list of targets depends
on those in the list and on no other. When they can be read back, so can the list: decoding
asks nothing more of it, and what it yields depends on the same targets. -/
theorem dependency_membership {o : Obligation} {targets : List DrainTarget}
    (hbuilt : o.dependencies = (Obligation.make o.kind o.holder targets).dependencies) :
    (∀ t, o.dependsOn t = true ↔ t ∈ targets) ∧
    (∀ o', Obligation.fromJson o.toJson = .ok o' → ∀ t, o'.dependsOn t = true ↔ t ∈ targets) ∧
    (1 ≤ targets.dedup.length → targets.dedup.length ≤ maxDependenciesPerObligation →
      (∀ target ∈ targets, target.Readable) → isValidSlug o.holder = true →
      IsOptionalSlug o.service → IsOptionalSlug o.group → o.revision ≠ 0 →
      o.reappearances ≤ maxObligationReappearances →
      ∃ o', Obligation.fromJson o.toJson = .ok o') := by
  have hmem : ∀ t, t ∈ o.dependencies.val ↔ t ∈ targets := by
    intro t
    rw [hbuilt]
    exact mem_sortUnique
  have hlength : o.dependencies.val.length = targets.dedup.length := by
    rw [hbuilt]
    exact length_sortUnique targets
  refine ⟨fun t => Obligation.dependsOn_iff.trans (hmem t), fun o' hread t => ?_, ?_⟩
  · obtain ⟨-, rfl⟩ := Obligation.fromJson_eq_ok.mp hread
    exact Obligation.dependsOn_iff.trans (hmem t)
  · intro hone hbound hreadable hholder hservice hgroup hrevision hreappearances
    refine ⟨_, Obligation.fromJson_eq_ok.mpr ⟨⟨hholder, ?_, hlength ▸ hbound, ?_, hservice, hgroup,
      hrevision, hreappearances⟩, rfl⟩⟩
    · exact List.ne_nil_of_length_pos (hlength ▸ hone)
    · exact fun target htarget => hreadable target ((hmem target).mp htarget)

/-- Three entries for two ports, the later one first. -/
theorem dependency_membership_ports :
    (Obligation.make .reservation "tenant" [{ id := "p2" }, { id := "p1" }, { id := "p2" }]).dependsOn
        { id := "p1" } = true :=
  ((dependency_membership rfl).1 _).mpr (by decide)

end DrainFabric
