import ApiScribe.Proofs.Survey.Answers
import ApiScribe.Proofs.Text.Cutting

/-!
# Who gets a component name

Everything opted in is named before anything is built. What asks for a name in its comment comes first, then
what goes by its own name, each in canonical order. The first to ask for a name gets it; the others get it with
their module in front, which holds a dot, so that a name without dots is never lost to a clash about another
one. Every clash is reported, and nothing else is.
-/

namespace ApiScribe

/-- The name that a declaration asked for in vain, if the finding is about that. -/
def Finding.claimed? (finding : Finding) : Option String :=
  match finding.cause with
  | .nameTaken preferred _ _ => some preferred
  | _ => none

/-- Reading a comment reports no clash of names. -/
theorem Comment.Container.claimed?_of_mem_read {lines : List String} {subject : String} {finding : Finding}
    (h : finding ∈ (Container.read lines subject).2) : finding.claimed? = none := by
  have hlex : ∀ finding ∈ (lex lines subject).2, finding.claimed? = none := by
    intro finding hfinding
    unfold lex LexState.finish at hfinding
    dsimp only at hfinding
    split at hfinding
    · rw [List.mem_singleton.mp hfinding]
      rfl
    · cases hfinding
  rcases List.mem_append.mp h with h | h
  · exact hlex finding h
  · obtain ⟨directive, -, h⟩ := List.mem_flatMap.mp h
    unfold complaints at h
    split at h
    · cases h
    · rw [List.mem_singleton.mp h]
      rfl

/-- A module in front of a name is written with dots between its segments, and the root module as `crate`. -/
theorem ModulePath.dotted_eq (module : ModulePath) :
    module.dotted = if module.segments = [] then "crate" else ".".intercalate module.segments := by
  rw [dotted, Text.join_eq_intercalate]
  simp only [List.isEmpty_iff]

namespace ComponentNames

variable {names : ComponentNames} {canonical other : QualifiedName} {preferred wanted name : String}

/-- What a name becomes if it is taken: the segments of the module stand in front with dots between them, or `crate`
in the root module, and maybe a number behind. -/
def Qualifies (canonical : QualifiedName) (preferred name : String) : Prop :=
  let lead := if canonical.module.segments = [] then "crate" else ".".intercalate canonical.module.segments
  name = lead ++ "." ++ preferred ∨ ∃ number ≥ 2, name = lead ++ "." ++ preferred ++ toString number

/-- A name with a module in front has a dot. -/
theorem Qualifies.mem_dot (h : Qualifies canonical preferred name) : '.' ∈ name.toList := by
  rcases h with rfl | ⟨number, -, rfl⟩ <;> simp

/-- The first free numbered name has a number from the given one on. -/
theorem exists_firstNumbered_eq (names : ComponentNames) (stem : String) (fuel number : Nat) :
    ∃ last ≥ number, names.firstNumbered stem fuel number = stem ++ Text.decimal last := by
  induction fuel generalizing number with
  | zero => exact ⟨number, le_rfl, rfl⟩
  | succ fuel ih =>
    unfold firstNumbered
    dsimp only
    split
    · obtain ⟨last, hlast, heq⟩ := ih (number + 1)
      exact ⟨last, by omega, heq⟩
    · exact ⟨number, le_rfl, rfl⟩

/-- What is given instead of a name that is taken has the module in front. -/
theorem firstFree_qualifies (names : ComponentNames) (canonical : QualifiedName) (preferred : String) :
    Qualifies canonical preferred (names.firstFree (canonical.module.dotted ++ "." ++ preferred)) := by
  unfold Qualifies
  dsimp only
  rw [← ModulePath.dotted_eq]
  unfold firstFree
  split
  · exact .inr (exists_firstNumbered_eq names _ _ 2)
  · exact .inl rfl

/-- A free name is given. -/
theorem assign_of_free (hnew : names.get? canonical = none) (hfree : names.holder? preferred = none) :
    names.assign canonical preferred = (preferred, names.give canonical preferred, []) := by
  simp only [assign, hnew, hfree]

/-- Instead of a name that is taken, one with the module in front is given and reported. -/
theorem assign_of_taken {holder : QualifiedName} (hnew : names.get? canonical = none)
    (htaken : names.holder? preferred = some holder) :
    ∃ name, Qualifies canonical preferred name ∧
      names.assign canonical preferred =
        (name, names.give canonical name, [⟨canonical.display, .nameTaken preferred holder.display name⟩]) :=
  ⟨_, firstFree_qualifies names canonical preferred, by simp only [assign, hnew, htaken]⟩

/-- The holder of a name is the one before, or else the one that it is given to. -/
theorem holder?_give (names : ComponentNames) (canonical : QualifiedName) (name wanted : String) :
    (names.give canonical name).holder? wanted =
      (names.holder? wanted).or (if name = wanted then some canonical else none) := by
  unfold holder? give
  rw [List.find?_append, Option.map_or]
  by_cases hname : name = wanted <;> simp [hname]

/-- The names of others stay. -/
theorem get?_give_of_ne (h : canonical ≠ other) (name : String) :
    (names.give canonical name).get? other = names.get? other := by
  simp [give, get?, List.find?_append, h]

/-- A name without dots goes to the first who asks for it, whatever others ask for. -/
theorem holder?_assign (hdot : '.' ∉ wanted.toList) (hnew : names.get? canonical = none) (preferred : String) :
    (names.assign canonical preferred).2.1.holder? wanted =
      (names.holder? wanted).or (if preferred = wanted then some canonical else none) := by
  cases hholder : names.holder? preferred with
  | none => rw [assign_of_free hnew hholder, holder?_give]
  | some holder =>
    obtain ⟨name, hname, hassign⟩ := assign_of_taken hnew hholder
    have hne : name ≠ wanted := by
      rintro rfl
      exact hdot hname.mem_dot
    rw [hassign, holder?_give, if_neg hne, Option.or_none]
    split
    · next heq => rw [← heq, hholder, Option.some_or]
    · rw [Option.or_none]

/-- Naming one declaration leaves others without a name. -/
theorem get?_assign_of_ne (h : canonical ≠ other) (preferred : String) :
    (names.assign canonical preferred).2.1.get? other = names.get? other := by
  cases hknown : names.get? canonical with
  | some name => simp only [assign, hknown]
  | none =>
    obtain ⟨name, -, hgive, -⟩ := assign_eq_give preferred hknown
    rw [hgive, get?_give_of_ne h]

/-- A clash is reported for the one who asks, about the name asked for. -/
theorem claimed?_of_mem_assign {finding : Finding} (h : finding ∈ (names.assign canonical preferred).2.2) :
    finding.subject = canonical.display ∧ finding.claimed? = some preferred := by
  unfold assign at h
  split at h
  · cases h
  · split at h
    · cases h
    · rw [List.mem_singleton.mp h]
      exact ⟨rfl, rfl⟩

end ComponentNames

namespace Table

open ComponentNames

variable {table : Table} {names : ComponentNames} {order : List QualifiedName} {wanted : String}

/-- The component name that a declaration asks for. -/
def preferredName (table : Table) (name : QualifiedName) : String := (table.comment name).name.getD name.name

/-- What is reported when declarations are named one after another. -/
def clashes (table : Table) : ComponentNames → List QualifiedName → List Finding
  | _, [] => []
  | names, name :: rest =>
    (names.assign name (table.preferredName name)).2.2 ++ table.clashes (table.entitle names name) rest

/-- The finding about a declaration that asked for a name in vain. -/
def clash (names : ComponentNames) (wanted : String) (holder other : QualifiedName) : Finding :=
  ⟨other.display, .nameTaken wanted holder.display ((names.get? other).getD "")⟩

/-- Names that were given stay when others are named. -/
theorem get?_foldl_entitle_of_some {name : QualifiedName} {given : String} (h : names.get? name = some given)
    (order : List QualifiedName) : (order.foldl table.entitle names).get? name = some given := by
  induction order generalizing names with
  | nil => exact h
  | cons other rest ih => exact ih (get?_assign_of_some h other _)

/-- The rest of an order has no names yet when its first declaration has been named. -/
theorem new_entitle {name : QualifiedName} {rest : List QualifiedName} (hnodup : (name :: rest).Nodup)
    (hnew : ∀ other ∈ name :: rest, names.get? other = none) :
    ∀ other ∈ rest, (table.entitle names name).get? other = none := by
  intro other hother
  have hne : name ≠ other := by
    rintro rfl
    exact (List.nodup_cons.mp hnodup).1 hother
  exact (get?_assign_of_ne hne _).trans (hnew other (List.mem_cons_of_mem _ hother))

/-- Every clash is reported for a declaration in the order, about the name that it asks for. -/
theorem claimed?_of_mem_clashes {finding : Finding} (h : finding ∈ table.clashes names order) :
    ∃ name ∈ order, finding.subject = name.display ∧ finding.claimed? = some (table.preferredName name) := by
  induction order generalizing names with
  | nil => cases h
  | cons name rest ih =>
    rcases List.mem_append.mp h with hassign | hrest
    · exact ⟨name, List.mem_cons_self, claimed?_of_mem_assign hassign⟩
    · obtain ⟨other, hother, hreported⟩ := ih hrest
      exact ⟨other, List.mem_cons_of_mem _ hother, hreported⟩

/-- Naming a declaration that asks for another name reports nothing about this one. -/
theorem clashes_cons_of_ne {name : QualifiedName} (h : table.preferredName name ≠ wanted)
    (rest : List QualifiedName) :
    (table.clashes names (name :: rest)).filter (fun finding => finding.claimed? = some wanted) =
      (table.clashes (table.entitle names name) rest).filter fun finding => finding.claimed? = some wanted := by
  have hnone : ((names.assign name (table.preferredName name)).2.2.filter fun finding =>
      finding.claimed? = some wanted) = [] := by
    rw [List.filter_eq_nil_iff]
    intro finding hfinding
    simpa [(claimed?_of_mem_assign hfinding).2] using h
  rw [clashes, List.filter_append, hnone, List.nil_append]

/-- Where a name without dots is taken, everyone who asks for it gets it with the module in front, and is
reported. -/
theorem entitle_of_taken (hdot : '.' ∉ wanted.toList) {holder : QualifiedName}
    (hnodup : order.Nodup) (hnew : ∀ name ∈ order, names.get? name = none)
    (htaken : names.holder? wanted = some holder) :
    (∀ other ∈ order, table.preferredName other = wanted →
      ∃ given, (order.foldl table.entitle names).get? other = some given ∧ Qualifies other wanted given) ∧
    (table.clashes names order).filter (fun finding => finding.claimed? = some wanted) =
      (order.filter fun name => table.preferredName name = wanted).map
        (clash (order.foldl table.entitle names) wanted holder) := by
  induction order generalizing names with
  | nil => exact ⟨fun _ h => absurd h List.not_mem_nil, rfl⟩
  | cons name rest ih =>
    have hname := hnew name List.mem_cons_self
    have htaken' : (table.entitle names name).holder? wanted = some holder := by
      rw [entitle, holder?_assign hdot hname, htaken, Option.some_or]
    obtain ⟨hothers, hclashes⟩ := ih (List.nodup_cons.mp hnodup).2 (new_entitle hnodup hnew) htaken'
    by_cases hwanted : table.preferredName name = wanted
    · obtain ⟨given, hgiven, hassign⟩ := assign_of_taken hname (hwanted.symm ▸ htaken)
      have hget : ((name :: rest).foldl table.entitle names).get? name = some given := by
        refine get?_foldl_entitle_of_some ?_ rest
        rw [entitle, ← preferredName, hassign]
        exact get?_give_self given hname
      refine ⟨fun other hother hasks => ?_, ?_⟩
      · rcases List.mem_cons.mp hother with rfl | hother
        · exact ⟨given, hget, hwanted ▸ hgiven⟩
        · exact hothers other hother hasks
      · have hclash : ⟨name.display, .nameTaken (table.preferredName name) holder.display given⟩ =
            clash ((name :: rest).foldl table.entitle names) wanted holder name := by
          rw [clash, hget, hwanted, Option.getD_some]
        rw [clashes, hassign, hclash, List.singleton_append,
          List.filter_cons_of_pos (by simp [clash, Finding.claimed?]), hclashes,
          List.filter_cons_of_pos (by simpa using hwanted)]
        rfl
    · refine ⟨fun other hother hasks => ?_, ?_⟩
      · rcases List.mem_cons.mp hother with rfl | hother
        · exact absurd hasks hwanted
        · exact hothers other hother hasks
      · rw [clashes_cons_of_ne hwanted, hclashes, List.filter_cons_of_neg (by simpa using hwanted)]
        rfl

/-- Where a name without dots is free, the first who asks for it gets it, and the others get it with the module
in front and are reported. -/
theorem entitle_of_free (hdot : '.' ∉ wanted.toList) {holder : QualifiedName} {others : List QualifiedName}
    (hnodup : order.Nodup) (hnew : ∀ name ∈ order, names.get? name = none)
    (hfree : names.holder? wanted = none)
    (hasking : (order.filter fun name => table.preferredName name = wanted) = holder :: others) :
    (order.foldl table.entitle names).get? holder = some wanted ∧
    (∀ other ∈ others, ∃ given, (order.foldl table.entitle names).get? other = some given ∧
      Qualifies other wanted given) ∧
    (table.clashes names order).filter (fun finding => finding.claimed? = some wanted) =
      others.map (clash (order.foldl table.entitle names) wanted holder) := by
  induction order generalizing names with
  | nil => cases hasking
  | cons name rest ih =>
    have hname := hnew name List.mem_cons_self
    have hholder : (table.entitle names name).holder? wanted =
        if table.preferredName name = wanted then some name else none := by
      rw [entitle, holder?_assign hdot hname, hfree, Option.none_or]
      rfl
    by_cases hwanted : table.preferredName name = wanted
    · rw [List.filter_cons_of_pos (by simpa using hwanted)] at hasking
      obtain ⟨rfl, rfl⟩ := List.cons.inj hasking
      rw [if_pos hwanted] at hholder
      obtain ⟨hothers, hclashes⟩ :=
        entitle_of_taken hdot (List.nodup_cons.mp hnodup).2 (new_entitle hnodup hnew) hholder
      have hassign := assign_of_free hname (hwanted.symm ▸ hfree)
      refine ⟨get?_foldl_entitle_of_some ?_ rest, fun other hother => ?_, ?_⟩
      · rw [entitle, ← preferredName, hassign, hwanted]
        exact get?_give_self wanted hname
      · obtain ⟨hmem, hasks⟩ := List.mem_filter.mp hother
        exact hothers other hmem (by simpa using hasks)
      · rw [clashes, hassign]
        exact hclashes
    · rw [List.filter_cons_of_neg (by simpa using hwanted)] at hasking
      rw [if_neg hwanted] at hholder
      rw [clashes_cons_of_ne hwanted]
      exact ih (List.nodup_cons.mp hnodup).2 (new_entitle hnodup hnew) hholder hasking

/-- The names of a table ascend, so no two are the same. -/
def Canonical (table : Table) : Prop := table.names.Pairwise fun a b => QualifiedName.compare a b = .lt

/-- In canonical order no name is there twice. -/
theorem Canonical.nodup (h : table.Canonical) : table.names.Nodup := by
  refine h.imp fun {a b} hlt => ?_
  rintro rfl
  rw [(QualifiedName.compare_eq_iff a a).mpr rfl] at hlt
  cases hlt

/-- Including a declaration keeps the order canonical. -/
theorem Canonical.including (h : table.Canonical) (declaration : Declaration) :
    (table.including declaration).Canonical :=
  Text.insertSorted_ascending (fun a b => (QualifiedName.compare_eq_iff a b).mp) declaration.name declaration h

/-- The opted-in declarations whose comments ask for a component name, in canonical order. -/
def askingFor (table : Table) (wanted : String) : List QualifiedName :=
  table.names.filter fun name => table.isOptedIn name && (table.comment name).name = some wanted

/-- The opted-in declarations that have a name themselves and ask for no other, in canonical order. -/
def goingBy (table : Table) (wanted : String) : List QualifiedName :=
  table.names.filter fun name => table.isOptedIn name && (table.comment name).name = none && name.name = wanted

/-- Who asks for a component name in a comment comes before who has the name. -/
theorem filter_namingOrder (table : Table) (wanted : String) :
    (table.namingOrder.filter fun name => table.preferredName name = wanted) =
      table.askingFor wanted ++ table.goingBy wanted := by
  unfold namingOrder askingFor goingBy preferredName
  simp only [List.filter_append, List.filter_filter]
  congr 1
  · refine List.filter_congr fun name _ => ?_
    cases (table.comment name).name <;> simp [Bool.and_comm]
  · refine List.filter_congr fun name _ => ?_
    cases (table.comment name).name <;> simp [Bool.and_comm]

/-- No declaration is named twice. -/
theorem Canonical.nodup_namingOrder (h : table.Canonical) : table.namingOrder.Nodup := by
  have hopted : (table.names.filter table.isOptedIn).Nodup := h.nodup.filter _
  unfold namingOrder
  refine (List.Perm.nodup_iff ?_).mpr hopted
  simpa using List.filter_append_perm (fun name => (table.comment name).name.isSome)
    (table.names.filter table.isOptedIn)

end Table

namespace Extraction

/-- An event keeps the declarations in canonical order. -/
theorem canonical_apply {state : Extraction} (h : state.table.Canonical) (event : Event) :
    (event.apply state).table.Canonical := by
  cases event with
  | enter module imports => exact h
  | declare declaration =>
    rcases state.declare_cases declaration with ⟨-, -, -, htable⟩ | ⟨-, -, htable⟩
    · rw [Event.apply, htable]
      exact h.including declaration
    · rw [Event.apply, htable]
      exact h
  | consider source module subject docs owner =>
    rw [Event.apply, (consider_eq _ _ _ _ _ _).2]
    exact h

/-- The table of any files is in canonical order. -/
theorem canonical_ofFiles (files : List Source.File) : (ofFiles files).table.Canonical :=
  ofFiles_keeps (fun _ _ event _ _ h => canonical_apply h event) List.Pairwise.nil

end Extraction

namespace Registry

variable {resolver : Resolver} {names : ComponentNames} {clashes : List Finding}

/-- What is known while declarations are being named: nothing was declared, comments say what the table says, and
of what was reported the clashes of names are known. -/
structure Naming (resolver : Resolver) (names : ComponentNames) (clashes : List Finding) (registry : Registry) :
    Prop where
  table : registry.table = resolver.table
  containers : ∀ entry ∈ registry.containers, entry.2 = resolver.table.comment entry.1
  names : registry.names = names
  findings : ∃ new, registry.findings = resolver.findings ++ new ∧
    (new.filter fun finding => finding.claimed?.isSome) = clashes

/-- Reading a comment reports what is wrong in it. -/
theorem container_run_unread {registry : Registry} {name : QualifiedName} (h : registry.comment? name = none) :
    (container name).run registry =
      (registry.commentOf name, (registry.withComment name).addFindings
        (Comment.Container.read (((registry.table.get? name).map Declaration.docs).getD []) name.display).2) := by
  have hentry := Option.map_eq_none_iff.mp h
  simp only [container, StateT.run_bind, StateT.run_get, pure_bind, hentry]
  rfl

/-- Findings that are added count as clashes if they claim a name. -/
theorem Naming.addFindings {registry : Registry} (h : registry.Naming resolver names clashes)
    (findings : List Finding) :
    (registry.addFindings findings).Naming resolver names
      (clashes ++ findings.filter fun finding => finding.claimed?.isSome) := by
  obtain ⟨new, hnew, rfl⟩ := h.findings
  refine ⟨h.table, h.containers, h.names, new ++ findings, ?_, List.filter_append ..⟩
  rw [← List.append_assoc, ← hnew]
  rfl

/-- Reading a comment clashes with nothing. -/
theorem Naming.withComment {registry : Registry} (h : registry.Naming resolver names clashes)
    (name : QualifiedName) : (registry.withComment name).Naming resolver names clashes := by
  refine ⟨h.table, fun entry hentry => ?_, h.names, h.findings⟩
  rcases List.mem_cons.mp hentry with rfl | hentry
  · dsimp only
    rw [commentOf, h.table, Table.comment]
  · exact h.containers entry hentry

/-- Reading a comment reports no clash. -/
theorem Naming.container (name : QualifiedName) :
    Gives (Naming resolver names clashes) (container name) (resolver.table.comment name) := by
  intro registry h
  cases hcomment : registry.comment? name with
  | some comment =>
    rw [container_run_known hcomment]
    obtain ⟨entry, hfind, rfl⟩ := Option.map_eq_some_iff.mp hcomment
    have hname : entry.1 = name := by simpa using List.find?_some hfind
    refine ⟨?_, h⟩
    rw [h.containers entry (List.mem_of_find?_eq_some hfind), hname]
  | none =>
    rw [container_run_unread hcomment]
    refine ⟨by rw [commentOf, h.table, Table.comment], ?_⟩
    have hread := (h.withComment name).addFindings
      (Comment.Container.read (((registry.table.get? name).map Declaration.docs).getD []) name.display).2
    rwa [List.filter_eq_nil_iff.mpr, List.append_nil] at hread
    intro finding hfinding
    rw [Comment.Container.claimed?_of_mem_read hfinding]
    exact Bool.false_ne_true

/-- Naming a declaration adds the clash that it meets, if any. -/
theorem Naming.named {registry : Registry} (h : registry.Naming resolver names clashes) (name : QualifiedName) :
    ((componentName name).run registry).2.Naming resolver (resolver.table.entitle names name)
      (clashes ++ (names.assign name (resolver.table.preferredName name)).2.2) := by
  unfold Table.entitle
  rw [← Table.preferredName]
  cases hknown : names.get? name with
  | some component =>
    rw [componentName_run_known (h.names ▸ hknown)]
    simpa only [ComponentNames.assign, hknown, List.append_nil] using h
  | none =>
    obtain ⟨hcomment, hread⟩ := Naming.container name registry h
    rw [componentName_run_new (h.names ▸ hknown), hcomment, hread.names, ← Table.preferredName]
    have hadded := hread.addFindings (names.assign name (resolver.table.preferredName name)).2.2
    rw [List.filter_eq_self.mpr fun finding hfinding => by
      rw [(ComponentNames.claimed?_of_mem_assign hfinding).2]; rfl] at hadded
    exact { hadded with names := rfl }

/-- Naming declarations one after another. -/
theorem Naming.named_forM {registry : Registry} (h : registry.Naming resolver names clashes)
    (order : List QualifiedName) :
    ((order.forM fun name => do let _ ← componentName name).run registry).2.Naming resolver
      (order.foldl resolver.table.entitle names) (clashes ++ resolver.table.clashes names order) := by
  induction order generalizing registry names clashes with
  | nil =>
    rw [Table.clashes, List.append_nil]
    exact h
  | cons name rest ih =>
    rw [Table.clashes, ← List.append_assoc]
    exact ih (h.named name)

/-- At the start of a run everything opted in is named in order, and the clashes are reported. -/
theorem naming_ofResolver (resolver : Resolver) :
    (ofResolver resolver).Naming resolver (resolver.table.namingOrder.foldl resolver.table.entitle {})
      (resolver.table.clashes {} resolver.table.namingOrder) := by
  have hstart : Naming resolver {} [] { resolver } :=
    ⟨rfl, fun _ hentry => absurd hentry List.not_mem_nil, rfl, [], (List.append_nil _).symm, rfl⟩
  obtain ⟨horder, hnaming⟩ := namingOrder_gives_of (fun _ h => congrArg Table.declarations h.table)
    (fun name => Naming.container name) _ hstart
  have hnamed := hnaming.named_forM resolver.table.namingOrder
  rw [← horder] at hnamed ⊢
  exact hnamed

/-- What is reported for a name is reported as a clash. -/
theorem filter_claimed (findings : List Finding) (wanted : String) :
    (findings.filter fun finding => finding.claimed? = some wanted) =
      (findings.filter fun finding => finding.claimed?.isSome).filter
        fun finding => finding.claimed? = some wanted := by
  rw [List.filter_filter]
  refine List.filter_congr fun finding _ => ?_
  cases finding.claimed? <;> simp

/-- A component name without dots that anything opted in asks for goes by priority: to the first in canonical
order whose comment asks for it, or else to the first that goes by this name itself. All others that ask for it
get it with their module in front, and maybe a number from 2 on behind, and these, each once and in order, are
the ones reported for it. Nothing is reported about a name but for who asks for it. -/
theorem component_names_by_priority (resolver : Resolver) (hcanonical : resolver.table.Canonical) {wanted : String}
    (hdot : '.' ∉ wanted.toList)
    (hasked : resolver.table.askingFor wanted ++ resolver.table.goingBy wanted ≠ []) :
    let table := resolver.table
    let registry := ofResolver resolver
    let asking := table.askingFor wanted ++ table.goingBy wanted
    ∃ holder new,
      (table.askingFor wanted).head?.or (table.goingBy wanted).head? = some holder ∧
      registry.names.get? holder = some wanted ∧
      (∀ other ∈ asking, other ≠ holder →
        ∃ given, registry.names.get? other = some given ∧ ComponentNames.Qualifies other wanted given) ∧
      registry.findings = resolver.findings ++ new ∧
      (new.filter fun finding => finding.claimed? = some wanted) =
        (asking.erase holder).map (Table.clash registry.names wanted holder) ∧
      ∀ finding ∈ new, ∀ claimed, finding.claimed? = some claimed →
        ∃ other, table.isOptedIn other = true ∧ finding.subject = other.display ∧
          table.preferredName other = claimed := by
  intro table registry asking
  obtain ⟨-, -, hnames, new, hfindings, hclashes⟩ := naming_ofResolver resolver
  obtain ⟨holder, others, hasking⟩ := List.exists_cons_of_ne_nil hasked
  have hfilter := (table.filter_namingOrder wanted).trans hasking
  have hfree : ComponentNames.holder? {} wanted = none := rfl
  obtain ⟨hget, hothers, hreported⟩ :=
    Table.entitle_of_free hdot hcanonical.nodup_namingOrder (fun _ _ => rfl) hfree hfilter
  have hrest : asking.erase holder = others := by
    rw [show asking = holder :: others from hasking, List.erase_cons_head]
  refine ⟨holder, new, ?_, hnames ▸ hget, fun other hother hne => ?_, hfindings, ?_,
    fun finding hfinding claimed hclaimed => ?_⟩
  · rw [← List.head?_append, hasking, List.head?_cons]
  · exact hnames ▸ hothers other (hrest ▸ (List.mem_erase_of_ne hne).mpr hother)
  · rw [filter_claimed, hclashes, hreported, hrest, hnames]
  · have hclash : finding ∈ table.clashes {} table.namingOrder :=
      hclashes ▸ List.mem_filter.mpr ⟨hfinding, by rw [hclaimed]; rfl⟩
    obtain ⟨other, hother, hsubject, hpreferred⟩ := Table.claimed?_of_mem_clashes hclash
    have hopted := Table.mem_namingOrder.mp hother
    exact ⟨other, hopted, hsubject, Option.some.inj (hpreferred.symm.trans hclaimed)⟩

/-- Three documented structs: one has the name that the second asks for, and the third asks for that name with
the module of the first in front. -/
def zooFile : Source.File where
  path := "src/lib.rs"
  module := .root
  content.attributes := []
  content.items :=
    [.struct ⟨"Animal", [⟨some "doc", .text "openapi:schema"⟩], []⟩ .unit,
     .struct ⟨"Creature", [⟨some "doc", .text "openapi:schema Animal"⟩], []⟩ .unit,
     .struct ⟨"Zoo", [⟨some "doc", .text "openapi:schema crate.Animal"⟩], []⟩ .unit]

/-- A documented struct in a nested module. -/
def errorsFile : Source.File where
  path := "src/models/errors.rs"
  module := ⟨["models", "errors"]⟩
  content.attributes := []
  content.items := [.struct ⟨"Animal", [⟨some "doc", .text "openapi:schema"⟩], []⟩ .unit]

/-- `Creature` asks for `Animal` and gets it. Of the two structs that are called so, one finds even its name with
the module taken, and the other gets its name with the nested module. -/
theorem component_names_by_priority_animals :
    let resolver : Resolver := { table := (Extraction.ofFiles [zooFile, errorsFile]).table }
    let registry := ofResolver resolver
    let creature : QualifiedName := ⟨.root, "Creature"⟩
    let animal : QualifiedName := ⟨.root, "Animal"⟩
    let nested : QualifiedName := ⟨⟨["models", "errors"]⟩, "Animal"⟩
    resolver.table.Canonical ∧ '.' ∉ "Animal".toList ∧
    resolver.table.askingFor "Animal" = [creature] ∧ resolver.table.goingBy "Animal" = [animal, nested] ∧
    registry.names.get? creature = some "Animal" ∧
    (registry.names.get? animal = some "crate.Animal2" ∧
      ComponentNames.Qualifies animal "Animal" "crate.Animal2") ∧
    (registry.names.get? nested = some "models.errors.Animal" ∧
      ComponentNames.Qualifies nested "Animal" "models.errors.Animal") ∧
    registry.findings.map Finding.display =
      ["crate::Animal: component name `Animal` is already used by crate::Creature; using `crate.Animal2`",
        "crate::models::errors::Animal: component name `Animal` is already used by crate::Creature; " ++
          "using `models.errors.Animal`"] := by
  intro resolver registry creature animal nested
  have hcanonical : resolver.table.Canonical := Extraction.canonical_ofFiles _
  have hdot : '.' ∉ "Animal".toList := by decide
  have hrun : resolver.table.askingFor "Animal" = [creature] ∧
      resolver.table.goingBy "Animal" = [animal, nested] ∧
      registry.names.get? animal = some "crate.Animal2" ∧
      registry.names.get? nested = some "models.errors.Animal" ∧ registry.findings.map Finding.display =
        ["crate::Animal: component name `Animal` is already used by crate::Creature; using `crate.Animal2`",
          "crate::models::errors::Animal: component name `Animal` is already used by crate::Creature; " ++
            "using `models.errors.Animal`"] := by
    decide +kernel
  obtain ⟨hasking, hgoing, hanimal, hnested, hreported⟩ := hrun
  obtain ⟨holder, new, hholder, hget, hothers, -, -, -⟩ :=
    component_names_by_priority resolver hcanonical hdot (by rw [hasking, hgoing]; simp)
  rw [hasking] at hholder hothers
  cases hholder
  rw [hgoing] at hothers
  obtain ⟨given, hgiven, hqualifies⟩ := hothers animal (by simp) (by decide)
  obtain ⟨other, hother, hqualifies'⟩ := hothers nested (by simp) (by decide)
  obtain rfl := Option.some.inj (hanimal.symm.trans hgiven)
  obtain rfl := Option.some.inj (hnested.symm.trans hother)
  exact ⟨hcanonical, hdot, hasking, hgoing, hget, ⟨hanimal, hqualifies⟩, ⟨hnested, hqualifies'⟩, hreported⟩

end Registry

end ApiScribe
