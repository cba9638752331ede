import ApiScribe.Proofs.Document.FileOrder
import ApiScribe.Proofs.Json.Decoding

/-!
# Operation ids

The builder remembers one place for an operation id: that of the latest operation with the id, for as long as no
other operation takes this place. An id that is used twice is therefore reported exactly if its latest holder is
still there. Where the latest holder was replaced, an earlier one that is still there goes unnoticed.
-/

namespace ApiScribe

namespace Json

/-- What is left out of a list without repeated keys is not found, the rest is. -/
theorem lookup_filter {α : Type} {members : List (String × α)} (hdistinct : (members.map Prod.fst).Nodup)
    (keep : String × α → Bool) (key : String) :
    lookup key (members.filter keep) = (lookup key members).filter fun value => keep (key, value) := by
  induction members with
  | nil => rfl
  | cons first rest ih =>
    obtain ⟨name, value⟩ := first
    rw [List.map_cons, List.nodup_cons] at hdistinct
    have hrest := ih hdistinct.2
    by_cases hkey : name = key
    · subst hkey
      -- The rest has no member under this key, whether or not the first one is kept.
      rw [lookup_of_not_mem hdistinct.1] at hrest
      cases hkeep : keep (name, value) <;> simp [lookup, hkeep, hrest, Option.filter]
    · cases hkeep : keep (name, value) <;> simp [lookup, hkeep, hkey, hrest]

/-- A key that is stored occurs once. -/
theorem nodup_keys_insert {α : Type} (key : String) (value : α) {members : List (String × α)}
    (h : (members.map Prod.fst).Nodup) : ((insert key value members).map Prod.fst).Nodup := by
  induction members with
  | nil => simp [insert]
  | cons first rest ih =>
    rw [List.map_cons, List.nodup_cons] at h
    unfold insert
    split
    · rw [List.map_cons, List.nodup_cons]
      exact h
    · next hne =>
      rw [List.map_cons, List.nodup_cons]
      refine ⟨fun hmem => ?_, ih h.2⟩
      obtain ⟨member, hmember, hname⟩ := List.mem_map.mp hmem
      rcases mem_insert hmember with rfl | hmember
      · exact hne hname.symm
      · exact h.1 (hname ▸ List.mem_map_of_mem hmember)

end Json

namespace Operation.Bound

/-- The place of an operation in the document. -/
def place (bound : Bound) : String × Method := (bound.path, bound.method)

/-- The id of an operation. -/
def id (bound : Bound) : String := bound.operation.operationId

end Operation.Bound

namespace Builder

open Operation (Method Bound)

/-- The id of the operation that is in a place. -/
def idAt (builder : Builder) (place : String × Method) : Option String :=
  (builder.previous? place.1 place.2).map Document.Operation.operationId

/-- The places of ids once an operation takes its place. -/
def released (builder : Builder) (bound : Bound) : List (String × (String × Method)) :=
  match builder.previous? bound.path bound.method with
  | some previous => release previous.operationId bound.place builder.operationIds
  | none => builder.operationIds

/-- The operation has the id of another one that is in the document under a different path or method. -/
def SharesId (builder : Builder) (bound : Bound) : Prop :=
  ∃ place, place ≠ bound.place ∧ builder.idAt place = some bound.id

/-- Adding the operation reports that its id is in use. -/
def ReportsReuse (builder : Builder) (bound : Bound) : Prop :=
  ∃ verb path, ⟨bound.id, .operationIdReused verb path⟩ ∈ (builder.addOperation bound).2

section Step

variable (builder : Builder) (bound : Bound)

/-- The id of an added operation belongs to its place. -/
theorem operationIds_addOperation :
    (builder.addOperation bound).1.operationIds = Json.insert bound.id bound.place (builder.released bound) := by
  unfold addOperation released
  cases builder.previous? bound.path bound.method <;> rfl

/-- An operation is in its place once it is added; the other places stay as they are. -/
theorem previous?_addOperation (path : String) (method : Method) :
    (builder.addOperation bound).1.previous? path method =
      if (path, method) = bound.place then some bound.operation else builder.previous? path method := by
  have hpaths : (builder.addOperation bound).1.paths = withOperation builder.paths bound := rfl
  unfold previous?
  rw [hpaths, withOperation]
  by_cases hpath : bound.path = path
  · subst hpath
    rw [Json.lookup_insertSorted_self, Option.bind_some, Document.PathItem.operation?_set]
    by_cases hmethod : method = bound.method
    · have hplace : (bound.path, method) = bound.place := Prod.ext rfl hmethod
      rw [if_pos hmethod, if_pos hplace]
    · rw [if_neg hmethod, if_neg fun hplace => hmethod (congrArg Prod.snd hplace)]
      cases Json.lookup bound.path builder.paths with
      | none => cases method <;> rfl
      | some item => rfl
  · rw [Json.lookup_insertSorted_of_ne hpath, if_neg fun hplace => hpath (congrArg Prod.fst hplace).symm]

/-- The place of an added operation has its id, and the other places are as before. -/
theorem idAt_addOperation (place : String × Method) :
    (builder.addOperation bound).1.idAt place =
      if place = bound.place then some bound.id else builder.idAt place := by
  unfold idAt
  rw [previous?_addOperation]
  split <;> rfl

/-- What adding an operation reports: the operation that it replaces, then the other place of its id. -/
theorem findings_addOperation : (builder.addOperation bound).2 =
    ((builder.previous? bound.path bound.method).map fun previous =>
      ⟨bound.id, .operationOverwritten bound.method.verb bound.path previous.operationId⟩).toList ++
    ((Json.lookup bound.id (builder.released bound)).map fun place =>
      ⟨bound.id, .operationIdReused place.2.verb place.1⟩).toList := by
  unfold addOperation released Operation.Bound.id Operation.Bound.place
  cases builder.previous? bound.path bound.method with
  | none =>
    dsimp only
    cases Json.lookup bound.operation.operationId builder.operationIds <;> rfl
  | some previous =>
    dsimp only
    cases Json.lookup bound.operation.operationId
      (release previous.operationId (bound.path, bound.method) builder.operationIds) <;> rfl

/-- A report of reuse names a place that the id still has when the operation has taken its own. -/
theorem mem_reused_iff (subject verb path : String) :
    ⟨subject, .operationIdReused verb path⟩ ∈ (builder.addOperation bound).2 ↔
      subject = bound.id ∧ ∃ method : Method, method.verb = verb ∧
        Json.lookup bound.id (builder.released bound) = some (path, method) := by
  rw [findings_addOperation, List.mem_append, Option.mem_toList, Option.mem_toList, Option.map_eq_some_iff,
    Option.map_eq_some_iff]
  constructor
  · rintro (⟨previous, -, hfinding⟩ | ⟨⟨other, method⟩, hfound, hfinding⟩)
    · cases hfinding
    · cases hfinding
      exact ⟨rfl, method, rfl, hfound⟩
  · rintro ⟨rfl, method, rfl, hfound⟩
    exact .inr ⟨(path, method), hfound, rfl⟩

/-- Reuse is reported exactly if the id still has a place when the operation has taken its own. -/
theorem reportsReuse_iff : builder.ReportsReuse bound ↔
    ∃ place, Json.lookup bound.id (builder.released bound) = some place := by
  constructor
  · rintro ⟨verb, path, hmem⟩
    obtain ⟨-, method, -, hfound⟩ := (mem_reused_iff ..).mp hmem
    exact ⟨(path, method), hfound⟩
  · rintro ⟨⟨path, method⟩, hfound⟩
    exact ⟨method.verb, path, (mem_reused_iff ..).mpr ⟨rfl, method, rfl, hfound⟩⟩

end Step

/-- The latest of the operations with an id. -/
def latestWith (id : String) (history : List Bound) : Option Bound :=
  history.reverse.find? fun bound => bound.id = id

/-- The builder after operations were added to a fresh one. -/
def after (history : List Bound) : Builder := (addOperations {} history).1

/-- The latest operation with an id is the last one if it has the id. -/
theorem latestWith_concat (id : String) (history : List Bound) (bound : Bound) :
    latestWith id (history ++ [bound]) = if bound.id = id then some bound else latestWith id history := by
  rw [latestWith, List.reverse_append, List.reverse_singleton, List.singleton_append, List.find?_cons]
  by_cases h : bound.id = id <;> simp [h, latestWith]

/-- The last operation is added last. -/
theorem after_concat (history : List Bound) (bound : Bound) :
    after (history ++ [bound]) = ((after history).addOperation bound).1 := by
  have hrun (builder : Builder) : (builder.addOperations (history ++ [bound])).1 =
      ((builder.addOperations history).1.addOperation bound).1 := by
    induction history generalizing builder with
    | nil => rfl
    | cons first rest ih => exact ih (builder.addOperation first).1
  exact hrun {}

/-- The builder knows the place of the latest operation with an id as long as that operation is there, and no
other place of the id. -/
structure Tracks (builder : Builder) (history : List Bound) : Prop where
  distinct : (builder.operationIds.map Prod.fst).Nodup
  lookup_iff (id : String) (place : String × Method) : Json.lookup id builder.operationIds = some place ↔
    builder.idAt place = some id ∧ (latestWith id history).map Bound.place = some place

namespace Tracks

variable {builder : Builder} {history : List Bound} (h : builder.Tracks history) (bound : Bound)

include h

/-- Taking a place releases the id that was known there and no other. -/
theorem lookup_released_iff (id : String) (place : String × Method) :
    Json.lookup id (builder.released bound) = some place ↔
      Json.lookup id builder.operationIds = some place ∧ place ≠ bound.place := by
  have hknown (hfound : Json.lookup id builder.operationIds = some bound.place) :
      ∃ previous, builder.previous? bound.path bound.method = some previous ∧ previous.operationId = id :=
    Option.map_eq_some_iff.mp ((h.lookup_iff id bound.place).mp hfound).1
  unfold released
  cases hprevious : builder.previous? bound.path bound.method with
  | none =>
    refine (and_iff_left_of_imp ?_).symm
    rintro hfound rfl
    obtain ⟨previous, hsome, -⟩ := hknown hfound
    rw [hprevious] at hsome
    cases hsome
  | some previous =>
    dsimp only
    rw [release, Json.lookup_filter h.distinct, Option.filter_eq_some_iff]
    refine and_congr_right fun hfound => ?_
    simp only [Bool.not_eq_true', Bool.and_eq_false_iff, decide_eq_false_iff_not]
    constructor
    · rintro hkept rfl
      obtain ⟨found, hsome, hid⟩ := hknown hfound
      rw [hprevious, Option.some_inj] at hsome
      subst hsome
      exact hkept.elim (fun hne => hne hid.symm) fun hne => hne rfl
    · exact Or.inr

/-- Adding an operation makes it the latest one with its id. -/
theorem addOperation : (builder.addOperation bound).1.Tracks (history ++ [bound]) where
  distinct := by
    rw [operationIds_addOperation]
    refine Json.nodup_keys_insert _ _ ?_
    unfold released
    split
    · exact h.distinct.sublist ((List.filter_sublist).map Prod.fst)
    · exact h.distinct
  lookup_iff id place := by
    rw [operationIds_addOperation, idAt_addOperation, latestWith_concat]
    by_cases hid : bound.id = id
    · subst hid
      rw [Json.lookup_insert_self, if_pos rfl, Option.map_some, Option.some_inj]
      constructor
      · rintro rfl
        exact ⟨if_pos rfl, rfl⟩
      · exact fun hplace => hplace.2
    · rw [Json.lookup_insert_of_ne (Ne.symm hid), h.lookup_released_iff, h.lookup_iff, if_neg hid]
      by_cases hplace : place = bound.place
      · rw [if_pos hplace]
        refine iff_of_false (fun hkept => hkept.2 hplace) fun htaken => hid (Option.some.inj htaken.1)
      · rw [if_neg hplace]
        exact and_iff_left hplace

end Tracks

/-- What the builder knows of ids, after any operations. -/
theorem tracks_after (history : List Bound) : (after history).Tracks history := by
  induction history using List.reverseRecOn with
  | nil =>
    refine ⟨List.nodup_nil, fun id place => iff_of_false (fun hfound => nomatch hfound) ?_⟩
    rintro ⟨-, hlatest⟩
    cases hlatest
  | append_singleton history bound ih =>
    rw [after_concat]
    exact ih.addOperation bound

/-- An operation id that is in use is reported exactly if the latest operation with it is still in its place, and
this is not the place that the new operation takes. -/
theorem reused_id_reported_iff (history : List Bound) (bound : Bound) :
    (after history).ReportsReuse bound ↔
      ∃ latest, latestWith bound.id history = some latest ∧ latest.place ≠ bound.place ∧
        (after history).idAt latest.place = some bound.id := by
  have htracks := tracks_after history
  rw [reportsReuse_iff]
  constructor
  · rintro ⟨place, hplace⟩
    obtain ⟨hfound, hne⟩ := (htracks.lookup_released_iff bound bound.id place).mp hplace
    obtain ⟨hlive, hlatest⟩ := (htracks.lookup_iff bound.id place).mp hfound
    obtain ⟨latest, hwith, rfl⟩ := Option.map_eq_some_iff.mp hlatest
    exact ⟨latest, hwith, hne, hlive⟩
  · rintro ⟨latest, hlatest, hne, hlive⟩
    refine ⟨latest.place, (htracks.lookup_released_iff bound bound.id latest.place).mpr ⟨?_, hne⟩⟩
    exact (htracks.lookup_iff bound.id latest.place).mpr ⟨hlive, by rw [hlatest, Option.map_some]⟩

/-- An operation without parts under a path. -/
def plainGet (path id : String) : Bound := ⟨.get, path, { operationId := id, responses := [] }⟩

/-- Two operations share an id and one of them is replaced. A third one with the id of the other is not reported. -/
theorem reused_id_unreported :
    (after [plainGet "/a" "list", plainGet "/b" "list", plainGet "/b" "show"]).SharesId (plainGet "/c" "list") ∧
    ¬ (after [plainGet "/a" "list", plainGet "/b" "list", plainGet "/b" "show"]).ReportsReuse
      (plainGet "/c" "list") := by
  constructor
  · exact ⟨("/a", .get), by decide, by decide +kernel⟩
  · rintro ⟨verb, path, hmem⟩
    have hfindings : ((after [plainGet "/a" "list", plainGet "/b" "list", plainGet "/b" "show"]).addOperation
        (plainGet "/c" "list")).2 = [] := by
      decide +kernel
    rw [hfindings] at hmem
    cases hmem

end Builder

end ApiScribe
