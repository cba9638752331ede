import ApiScribe.Proofs.Document.Decoding
import ApiScribe.Proofs.Document.OperationIds
import Mathlib.Algebra.GroupWithZero.Nat
import Mathlib.Data.Finset.Card

/-!
# The table of operations

The latest operation in a place is the one that the document shows there, and the document shows nothing else. Each
operation that is added either takes a free place or is reported to overwrite another one, so the operations of the
document and the reports of overwriting add up to the operations that were added.

The places remembered for operation ids go along with the table: the operation in such a place has the id. A report
of a reused id therefore never names an operation that is gone, nor the one that is being added.
-/

namespace ApiScribe

/-- Storing an entry exchanges the weight of what was under its key for the weight of the new value. -/
theorem Json.sum_insertSorted {α : Type} (weight : α → Nat) (key : String) (value : α) {entries : List (String × α)}
    (h : Document.KeysAscend entries) :
    ((Text.insertSorted Text.compareText key value entries).map fun entry => weight entry.2).sum +
        (lookup key entries).elim 0 weight =
      (entries.map fun entry => weight entry.2).sum + weight value := by
  induction entries with
  | nil => simp [Text.insertSorted, lookup]
  | cons first rest ih =>
    obtain ⟨name, held⟩ := first
    obtain ⟨hfirst, hrest⟩ := List.pairwise_cons.mp h
    unfold Text.insertSorted
    split
    · next hlt =>
      -- A key before the first one comes before all of them.
      have hnew : key ∉ ((name, held) :: rest).map Prod.fst := by
        intro hmem
        have hself : Text.compareText key key = .lt := by
          rcases List.mem_cons.mp hmem with heq | hmem
          · exact heq ▸ hlt
          · exact Std.TransCmp.lt_trans hlt (hfirst key hmem)
        rw [(Text.compareText_eq_iff key key).mpr rfl] at hself
        cases hself
      rw [lookup_of_not_mem hnew, Option.elim_none, Nat.add_zero, List.map_cons, List.sum_cons, Nat.add_comm]
    · next heq =>
      have hkey := (Text.compareText_eq_iff _ _).mp heq
      simp only [lookup, if_pos hkey.symm, List.map_cons, List.sum_cons, Option.elim_some]
      omega
    · next hgt =>
      have hne : name ≠ key := by
        intro heq
        rw [(Text.compareText_eq_iff _ _).mpr heq.symm] at hgt
        cases hgt
      have hrest := ih hrest
      simp only [lookup, if_neg hne, List.map_cons, List.sum_cons]
      omega

/-- A path gains an operation unless it had one under the method. -/
theorem Document.PathItem.count_set (item : PathItem) (method : ApiScribe.Operation.Method)
    (operation : Operation) :
    (item.set method operation).count + (if (item.operation? method).isSome then 1 else 0) = item.count + 1 := by
  have hmem : method ∈ ApiScribe.Operation.Method.all := by cases method <;> decide
  have hperm := List.perm_cons_erase hmem
  have hothers : (ApiScribe.Operation.Method.all.erase method).countP
        (fun other => ((item.set method operation).operation? other).isSome) =
      (ApiScribe.Operation.Method.all.erase method).countP fun other => (item.operation? other).isSome := by
    refine List.countP_congr fun other hother => ?_
    have hne : other ≠ method := ((List.Nodup.mem_erase_iff (by decide)).mp hother).1
    rw [operation?_set, if_neg hne]
  unfold count
  rw [← List.countP_eq_length_filter, ← List.countP_eq_length_filter, hperm.countP_eq, hperm.countP_eq,
    List.countP_cons, List.countP_cons, hothers, operation?_set, if_pos rfl]
  simp only [Option.isSome_some, if_true]
  omega

/-- Operations are counted path by path. -/
theorem Document.operationCount_eq_sum (document : Document) :
    document.operationCount = (document.paths.map fun entry => entry.2.count).sum := by
  unfold operationCount
  induction document.paths with
  | nil => rfl
  | cons entry rest ih => rw [List.foldr_cons, ih, List.map_cons, List.sum_cons]

/-- Whether a finding reports that an operation was overwritten. -/
def Finding.isOverwrite (finding : Finding) : Bool :=
  match finding.cause with
  | .operationOverwritten _ _ _ => true
  | _ => false

namespace Builder

open Operation (Method Bound)

/-- The latest of the operations in a place. -/
def latestAt (place : String × Method) (history : List Bound) : Option Bound :=
  history.reverse.find? fun bound => bound.place = place

/-- What is reported while operations are added to a fresh builder. -/
def reports (history : List Bound) : List Finding := (addOperations {} history).2

/-- The number of operations in the table. -/
def liveCount (builder : Builder) : Nat := (builder.paths.map fun entry => entry.2.count).sum

/-- The latest operation at a place is the last one if it is there. -/
theorem latestAt_concat (place : String × Method) (history : List Bound) (bound : Bound) :
    latestAt place (history ++ [bound]) = if place = bound.place then some bound else latestAt place history := by
  rw [latestAt, List.reverse_append, List.reverse_singleton, List.singleton_append, List.find?_cons]
  by_cases h : place = bound.place
  · simp [h]
  · simp [h, Ne.symm h, latestAt]

/-- A place has a latest operation exactly if an operation was added there. -/
theorem isSome_latestAt_iff (place : String × Method) (history : List Bound) :
    (latestAt place history).isSome ↔ place ∈ history.map Bound.place := by
  simp [latestAt]

/-- The reports of the last operation come last. -/
theorem reports_concat (history : List Bound) (bound : Bound) :
    reports (history ++ [bound]) = reports history ++ ((after history).addOperation bound).2 := by
  have hrun (builder : Builder) : (builder.addOperations (history ++ [bound])).2 =
      (builder.addOperations history).2 ++ ((builder.addOperations history).1.addOperation bound).2 := by
    induction history generalizing builder with
    | nil => exact List.append_nil _
    | cons first rest ih =>
      have hrest := ih (builder.addOperation first).1
      simp only [List.cons_append, addOperations, hrest, List.append_assoc]
  exact hrun {}

section Step

variable (builder : Builder) (bound : Bound)

/-- Adding an operation reports an overwritten one exactly if its place was taken. -/
theorem countP_isOverwrite_addOperation : (builder.addOperation bound).2.countP Finding.isOverwrite =
    if (builder.previous? bound.path bound.method).isSome then 1 else 0 := by
  rw [findings_addOperation, List.countP_append]
  cases builder.previous? bound.path bound.method <;>
    cases Json.lookup bound.id (builder.released bound) <;> rfl

/-- Adding an operation makes one more, unless its place was taken. -/
theorem liveCount_addOperation (h : Document.KeysAscend builder.paths) :
    (builder.addOperation bound).1.liveCount + (builder.addOperation bound).2.countP Finding.isOverwrite =
      builder.liveCount + 1 := by
  have hpaths : (builder.addOperation bound).1.paths = withOperation builder.paths bound := rfl
  have hsum := Json.sum_insertSorted Document.PathItem.count bound.path
    (((Json.lookup bound.path builder.paths).getD {}).set bound.method bound.operation) h
  have hset := Document.PathItem.count_set ((Json.lookup bound.path builder.paths).getD {}) bound.method
    bound.operation
  rw [countP_isOverwrite_addOperation, liveCount, liveCount, hpaths, withOperation, previous?]
  cases hitem : Json.lookup bound.path builder.paths with
  | none =>
    rw [hitem, Option.elim_none, Option.getD_none] at hsum
    rw [hitem, Option.getD_none] at hset
    have hempty : ({} : Document.PathItem).count = 0 := rfl
    have hfree : ({} : Document.PathItem).operation? bound.method = none := by cases bound.method <;> rfl
    rw [hempty, hfree] at hset
    rw [Option.getD_none, Option.bind_none]
    simp only [Option.isSome_none, Bool.false_eq_true, if_false] at hset ⊢
    omega
  | some item =>
    rw [hitem, Option.elim_some, Option.getD_some] at hsum
    rw [hitem, Option.getD_some] at hset
    rw [Option.getD_some, Option.bind_some]
    omega

end Step

/-- The paths of the table are sorted, and each of them is that of an operation that was added. -/
theorem paths_after (history : List Bound) : Document.KeysAscend (after history).paths ∧
    ∀ path, path ∈ (after history).paths.map Prod.fst ↔ path ∈ history.map Bound.path := by
  have heq : ∀ a b, Text.compareText a b = .eq → a = b := fun a b => (Text.compareText_eq_iff a b).mp
  induction history using List.reverseRecOn with
  | nil => exact ⟨List.Pairwise.nil, fun path => Iff.rfl⟩
  | append_singleton history bound ih =>
    rw [after_concat]
    refine ⟨Text.insertSorted_ascending heq _ _ ih.1, fun path => ?_⟩
    rw [List.map_append, List.mem_append, ← ih.2 path, List.map_singleton, List.mem_singleton, or_comm]
    exact Text.mem_keys_insertSorted heq _ _ _ path

/-- The table holds the latest operation of every place. -/
theorem previous?_after (history : List Bound) (path : String) (method : Method) :
    (after history).previous? path method = (latestAt (path, method) history).map Bound.operation := by
  induction history using List.reverseRecOn with
  | nil => rfl
  | append_singleton history bound ih =>
    rw [after_concat, previous?_addOperation, latestAt_concat, ih]
    split <;> rfl

/-- Every operation that was added is live or was overwritten. -/
theorem liveCount_add_overwritten (history : List Bound) :
    (after history).liveCount + (reports history).countP Finding.isOverwrite = history.length := by
  induction history using List.reverseRecOn with
  | nil => rfl
  | append_singleton history bound ih =>
    have hstep := liveCount_addOperation (after history) bound (paths_after history).1
    rw [after_concat, reports_concat, List.countP_append, List.length_append, List.length_singleton]
    omega

/-- The table has one operation for each place. -/
theorem liveCount_after (history : List Bound) :
    (after history).liveCount = (history.map Bound.place).toFinset.card := by
  induction history using List.reverseRecOn with
  | nil => rfl
  | append_singleton history bound ih =>
    have hstep := liveCount_addOperation (after history) bound (paths_after history).1
    have htaken : ((after history).previous? bound.path bound.method).isSome ↔
        bound.place ∈ (history.map Bound.place).toFinset := by
      rw [previous?_after, Option.isSome_map, List.mem_toFinset]
      exact isSome_latestAt_iff bound.place history
    rw [countP_isOverwrite_addOperation, ih] at hstep
    rw [after_concat, List.map_append, List.toFinset_append, List.map_singleton, List.toFinset_cons,
      List.toFinset_nil, LawfulSingleton.insert_empty_eq, Finset.union_comm, ← Finset.insert_eq]
    by_cases hplace : bound.place ∈ (history.map Bound.place).toFinset
    · rw [Finset.insert_eq_of_mem hplace]
      rw [if_pos (htaken.mpr hplace)] at hstep
      omega
    · rw [Finset.card_insert_of_notMem hplace]
      rw [if_neg (mt htaken.mp hplace)] at hstep
      omega

/-- The operation in a place that is remembered for an id has this id. -/
theorem idAt_of_mem_operationIds (history : List Bound) {id : String} {place : String × Method}
    (h : (id, place) ∈ (after history).operationIds) : (after history).idAt place = some id := by
  have htracks := tracks_after history
  exact ((htracks.lookup_iff id place).mp (Json.lookup_of_mem htracks.distinct h)).1

/-- A report of a reused id names an operation that is in the table under the id, in another place than that of the
operation being added. -/
theorem reused_names_live (history : List Bound) (bound : Bound) {subject verb path : String}
    (h : ⟨subject, .operationIdReused verb path⟩ ∈ ((after history).addOperation bound).2) :
    subject = bound.id ∧ ∃ method : Method, method.verb = verb ∧ (path, method) ≠ bound.place ∧
      (after (history ++ [bound])).idAt (path, method) = some bound.id := by
  have htracks := tracks_after history
  obtain ⟨hsubject, method, hverb, hfound⟩ := (mem_reused_iff ..).mp h
  obtain ⟨hknown, hne⟩ := (htracks.lookup_released_iff bound bound.id (path, method)).mp hfound
  refine ⟨hsubject, method, hverb, hne, ?_⟩
  rw [after_concat, idAt_addOperation, if_neg hne]
  exact ((htracks.lookup_iff bound.id (path, method)).mp hknown).1

/-- The last write wins. The document shows in every place the latest operation that was added there, on the paths
of these operations and no others. It has one operation for each distinct place, and the other operations that were
added are those reported as overwriting one. After every step a place that is remembered for an id holds an
operation with that id, so that a report of a reused id names an operation of the table in another place. -/
theorem last_write_wins (history : List Bound) (schemas : List (String × Schema)) :
    (∀ path method, ((after history).build schemas).operation? path method =
      (latestAt (path, method) history).map Bound.operation) ∧
    Document.KeysAscend ((after history).build schemas).paths ∧
    (∀ path, path ∈ ((after history).build schemas).paths.map Prod.fst ↔ path ∈ history.map Bound.path) ∧
    ((after history).build schemas).operationCount = (history.map Bound.place).toFinset.card ∧
    (reports history).countP Finding.isOverwrite + ((after history).build schemas).operationCount =
      history.length ∧
    (∀ earlier, earlier <+: history → ∀ id place, (id, place) ∈ (after earlier).operationIds →
      (after earlier).idAt place = some id) ∧
    ∀ earlier bound, earlier ++ [bound] <+: history → ∀ subject verb path,
      ⟨subject, .operationIdReused verb path⟩ ∈ ((after earlier).addOperation bound).2 →
        subject = bound.id ∧ ∃ method : Method, method.verb = verb ∧ (path, method) ≠ bound.place ∧
          (after (earlier ++ [bound])).idAt (path, method) = some bound.id := by
  have hcount : ((after history).build schemas).operationCount = (after history).liveCount :=
    Document.operationCount_eq_sum _
  refine ⟨previous?_after history, (paths_after history).1, (paths_after history).2, ?_, ?_, ?_, ?_⟩
  · rw [hcount, liveCount_after]
  · rw [hcount, Nat.add_comm, liveCount_add_overwritten]
  · exact fun earlier _ id place => idAt_of_mem_operationIds earlier
  · exact fun earlier bound _ subject verb path => reused_names_live earlier bound

/-- Of three operations in two places one is overwritten, and the report on the second one names the first. -/
theorem last_write_wins_lists :
    ((after [plainGet "/a" "list", plainGet "/b" "list", plainGet "/b" "show"]).build []).operationCount = 2 ∧
    (reports [plainGet "/a" "list", plainGet "/b" "list", plainGet "/b" "show"]).countP Finding.isOverwrite = 1 ∧
    ∃ method : Method, method.verb = "GET" ∧ ("/a", method) ≠ (plainGet "/b" "list").place ∧
      (after ([plainGet "/a" "list"] ++ [plainGet "/b" "list"])).idAt ("/a", method) = some "list" := by
  obtain ⟨-, -, -, hcount, hsum, -, hreused⟩ :=
    last_write_wins [plainGet "/a" "list", plainGet "/b" "list", plainGet "/b" "show"] []
  have hplaces : ([plainGet "/a" "list", plainGet "/b" "list", plainGet "/b" "show"].map
      Operation.Bound.place).toFinset.card = 2 := by decide
  have hreport : ⟨"list", .operationIdReused "GET" "/a"⟩ ∈
      ((after [plainGet "/a" "list"]).addOperation (plainGet "/b" "list")).2 := by decide +kernel
  rw [hplaces] at hcount
  rw [hcount] at hsum
  have hprefix : [plainGet "/a" "list"] ++ [plainGet "/b" "list"] <+:
      [plainGet "/a" "list", plainGet "/b" "list", plainGet "/b" "show"] := ⟨[plainGet "/b" "show"], rfl⟩
  exact ⟨hcount, Nat.add_right_cancel hsum, (hreused _ _ hprefix _ _ _ hreport).2⟩

end Builder

end ApiScribe
