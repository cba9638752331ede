import ApiScribe.Proofs.Json.Pointers
import ApiScribe.Proofs.Overlay.Places

/-!
# Where overlays conflict

A warning names its path by a pointer. Below the root the path can be read back from the pointer, whatever its keys
hold. The root is written like the path of the empty key, but a conflict there leaves no room for another: only
values that are both objects are compared further down. So no two warnings of one overlay have the same subject.
-/

namespace ApiScribe.Overlay

open Json (Value)

variable {base overlay : Value} {path other : List String} {finding otherFinding : Finding}

/-- The path below the root can be read back from the subject of its warning. -/
theorem tokens?_pointerSubject (h : path ≠ []) :
    Pointer.tokens? (pointerSubject (path.foldl childPointer "")) = some path := by
  have hread : Pointer.tokens? (path.foldl childPointer "") = some path := Pointer.tokens?_eq_some_iff.mpr rfl
  have hwritten : path.foldl childPointer "" ≠ "" := by
    intro hempty
    have hroot : Pointer.tokens? "" = some [] := Pointer.tokens?_eq_some_iff.mpr rfl
    rw [hempty, hroot] at hread
    exact h (Option.some.inj hread).symm
  rw [pointerSubject, if_neg hwritten, hread]

/-- A warning is about the pointer to its path. -/
theorem subject_of_warningAt? {pointer : String} (h : warningAt? pointer base overlay path = some finding) :
    finding.subject = pointerSubject (path.foldl childPointer pointer) := by
  obtain ⟨kept, offered, -, -, -, rfl⟩ := warningAt?_eq_some_iff.mp h
  rfl

/-- A value with members is an object. -/
theorem kindOf_of_members {value : Value} (h : value.members ≠ []) : kindOf value = .object := by
  obtain ⟨member, members, rfl⟩ := exists_of_members h
  rfl

/-- A conflict at the root excludes any other. -/
theorem eq_nil_of_root_conflict {pointer : String} (hroot : warningAt? pointer base overlay [] = some finding)
    (h : warningAt? pointer base overlay path = some otherFinding) : path = [] := by
  obtain ⟨kept, offered, hkept, hoffered, hdiffer, -⟩ := warningAt?_eq_some_iff.mp hroot
  cases hkept
  cases hoffered
  cases path with
  | nil => rfl
  | cons key path =>
    obtain ⟨kept, offered, hkept, hoffered, -, -⟩ := warningAt?_eq_some_iff.mp h
    obtain ⟨inner, hinner, -⟩ := Option.bind_eq_some_iff.mp hkept
    obtain ⟨inside, hinside, -⟩ := Option.bind_eq_some_iff.mp hoffered
    have hkind : kindOf base = kindOf overlay := by
      rw [kindOf_of_members (members_ne_nil_of_lookup hinner), kindOf_of_members (members_ne_nil_of_lookup hinside)]
    exact absurd hkind (differ_iff.mp hdiffer).2.2

/-- The subject of a warning tells its path among the warnings about the same values. -/
theorem path_eq_of_subject_eq (h : warningAt? "" base overlay path = some finding)
    (hother : warningAt? "" base overlay other = some otherFinding)
    (hsubject : finding.subject = otherFinding.subject) : path = other := by
  -- The root has the subject of the empty key, so it cannot be told by reading; there is no other conflict then.
  by_cases hpath : path = []
  · subst hpath
    exact (eq_nil_of_root_conflict h hother).symm
  by_cases hroot : other = []
  · subst hroot
    exact eq_nil_of_root_conflict hother h
  · have hread := tokens?_pointerSubject hpath
    rw [← subject_of_warningAt? h, hsubject, subject_of_warningAt? hother, tokens?_pointerSubject hroot] at hread
    exact (Option.some.inj hread).symm

/-- Each warning is recorded for one path at which the values conflict, and each such path has one warning. Warnings
for different paths have different subjects, so that no subject appears twice. -/
theorem conflict_subjects_distinct (base overlay : Value) (h : overlay.KeysDistinct) :
    (∃ places : List (List String), places.Nodup ∧
      (∀ path, path ∈ places ↔ (warningAt? "" base overlay path).isSome) ∧
      List.Forall₂ (fun path finding => warningAt? "" base overlay path = some finding) places
        (merge "" base overlay).2) ∧
    (∀ path other finding otherFinding, warningAt? "" base overlay path = some finding →
      warningAt? "" base overlay other = some otherFinding → path ≠ other →
      finding.subject ≠ otherFinding.subject) ∧
    ((merge "" base overlay).2.map Finding.subject).Nodup := by
  rw [findings_eq_filterMap h]
  refine ⟨⟨overlay.paths.filter fun path => (warningAt? "" base overlay path).isSome,
    (Value.nodup_paths h).filter _, fun path => ?_, forall₂_filterMap overlay.paths fun _ _ hfinding => hfinding⟩,
    fun path other finding otherFinding hpath hother hne hsubject => ?_, ?_⟩
  · rw [List.mem_filter, Value.mem_paths_iff h, and_iff_right_iff_imp]
    intro hsome
    obtain ⟨finding, hfinding⟩ := Option.isSome_iff_exists.mp hsome
    obtain ⟨kept, offered, -, hoffered, -, -⟩ := warningAt?_eq_some_iff.mp hfinding
    rw [hoffered, Option.isSome_some]
  · exact hne (path_eq_of_subject_eq hpath hother hsubject)
  · rw [List.map_filterMap]
    refine (Value.nodup_paths h).filterMap fun path other subject hpath hother => ?_
    obtain ⟨finding, hfinding, hsubject⟩ := Option.map_eq_some_iff.mp hpath
    obtain ⟨otherFinding, hotherFinding, hotherSubject⟩ := Option.map_eq_some_iff.mp hother
    exact path_eq_of_subject_eq hfinding hotherFinding (hsubject.trans hotherSubject.symm)

/-- A document with texts under keys that need escaping, under the empty key and further down. -/
def spelled : Value :=
  .obj [("a/b", .str "x"), ("a", .obj [("b", .str "y")]), ("", .str "z"), ("a~1b", .str "w")]

/-- An override with numbers in their places. -/
def spelling : Value := .obj [("a", .obj [("b", .int 1)]), ("a~1b", .int 2), ("", .int 3), ("a/b", .int 4)]

/-- All four numbers are warned about, under four subjects. -/
theorem conflict_subjects_distinct_escaped :
    spelling.KeysDistinct ∧ (merge "" spelled spelling).2.length = 4 ∧
    ((merge "" spelled spelling).2.map Finding.subject).Nodup ∧
    ∃ finding otherFinding, warningAt? "" spelled spelling ["a/b"] = some finding ∧
      warningAt? "" spelled spelling ["a", "b"] = some otherFinding ∧ finding.subject ≠ otherFinding.subject := by
  have hdistinct : spelling.KeysDistinct := by
    simp [spelling, Value.KeysDistinct, Json.membersKeysDistinct]
  obtain ⟨-, hsubjects, hnodup⟩ := conflict_subjects_distinct spelled spelling hdistinct
  exact ⟨hdistinct, rfl, hnodup, _, _, rfl, rfl, hsubjects ["a/b"] ["a", "b"] _ _ rfl rfl (by decide)⟩

end ApiScribe.Overlay
