import ApiScribe.Proofs.Document.OptIn

/-!
# What the registry remembers of comments

A registry reads every comment once and remembers it. On its own account it reads the comment of a declared
name only, and a declaration stays as it is, so what it remembers remains what the table says. A user may
also ask for the comment of a name that is not declared yet. The registry then remembers an empty comment,
and keeps to it when a module that declares the name is loaded later.
-/

namespace ApiScribe

/-- The table declares the name, with a comment that has a directive `schema`. -/
def Table.OptsIn (table : Table) (name : QualifiedName) : Prop :=
  ∃ declaration, table.get? name = some declaration ∧
    ∃ directive ∈ (Comment.lex declaration.docs name.display).1.directives, directive.key = "schema"

namespace Registry

/-- Among the calls, one asks for the comment of the name at a moment when the name is not declared. -/
def AsksEarly (registry : Registry) (calls : List Call) (name : QualifiedName) : Prop :=
  ∃ earlier later, calls = earlier ++ .container name :: later ∧
    (registry.after earlier).table.contains name = false

/-- If the comment of the name was read, the name is declared and the comment is what the table says. -/
def IsCurrent (registry : Registry) (name : QualifiedName) : Prop :=
  ∀ comment, registry.comment? name = some comment →
    registry.table.contains name = true ∧ comment = registry.commentOf name

/-- With its own comment, a declaration is opted in exactly if it opts in. -/
theorem isOptedIn_eq_true_iff {registry : Registry} {name : QualifiedName}
    (h : registry.commentFor name = registry.commentOf name) :
    registry.isOptedIn name = true ↔ registry.table.OptsIn name := by
  rw [isOptedIn, h, Table.contains, Table.OptsIn]
  cases hget : registry.table.get? name with
  | none => simp
  | some declaration => simp [commentOf_eq hget, Comment.Container.schema_read_iff]

/-- A current entry is the comment of the declaration. -/
theorem IsCurrent.commentFor_eq {registry : Registry} {name : QualifiedName} (h : registry.IsCurrent name) :
    registry.commentFor name = registry.commentOf name := by
  rw [commentFor]
  cases hcomment : registry.comment? name with
  | none => rfl
  | some comment => exact (h comment hcomment).2

/-- The empty comment is what is read for a name that is not declared. -/
theorem commentOf_of_not_contains {registry : Registry} {name : QualifiedName}
    (h : registry.table.contains name = false) : registry.commentOf name = {} := by
  have hnone : registry.table.get? name = none := by simpa [Table.contains] using h
  rw [commentOf, hnone]
  rfl

/-- The comment of a name is remembered as before, or it has been read from a table that declares the name. -/
def KeepsComment (name : QualifiedName) (first last : Registry) : Prop :=
  last.comment? name = first.comment? name ∨
    first.comment? name = none ∧ last.table.contains name = true ∧
      last.comment? name = some (last.commentOf name)

/-- Keeping a comment is transitive along growth. -/
theorem KeepsComment.trans {name : QualifiedName} {first middle last : Registry}
    (h : KeepsComment name first middle) (h' : KeepsComment name middle last) (hgrows : Grows middle last) :
    KeepsComment name first last := by
  rcases h with heq | ⟨hnone, hdeclared, hread⟩ <;> rcases h' with heq' | ⟨hnone', hdeclared', hread'⟩
  · exact .inl (heq'.trans heq)
  · exact .inr ⟨heq ▸ hnone', hdeclared', hread'⟩
  · exact .inr ⟨hnone, hgrows.contains hdeclared, by rw [heq', hread, hgrows.commentOf_eq hdeclared]⟩
  · rw [hread] at hnone'
    cases hnone'

/-- Reading keeps comments. -/
theorem Reads.keepsComment {first last : Registry} (h : Reads first last) (name : QualifiedName) :
    KeepsComment name first last := by
  induction h with
  | refl => exact .inl rfl
  | trans _ hlast ih ih' => exact ih.trans ih' hlast.grows
  | note => exact .inl rfl
  | load => exact .inl rfl
  | comment registry other hdeclared hnew =>
    by_cases hother : other = name
    · subst hother
      exact .inr ⟨hnew, hdeclared, by rw [comment?_withComment, if_pos rfl]; rfl⟩
    · exact .inl (by rw [comment?_withComment, if_neg hother])

/-- Preparing keeps comments. -/
theorem Prepares.keepsComment {first last : Registry} (h : Prepares first last) (name : QualifiedName) :
    KeepsComment name first last := by
  induction h with
  | read h => exact h.keepsComment name
  | trans _ hlast ih ih' => exact ih.trans ih' hlast.grows
  | entitle => exact .inl rfl

/-- A run reads the comments of declared names only, and each at most once. -/
theorem Advances.keepsComment {first last : Registry} (h : Advances first last) (name : QualifiedName) :
    KeepsComment name first last := by
  induction h with
  | prepare h => exact h.keepsComment name
  | trans _ hlast ih ih' => exact ih.trans ih' hlast.grows
  | giveUp => exact .inl rfl
  | build _ _ _ _ _ _ _ _ _ _ ih => exact ih
  | expand _ _ ih => exact ih

/-- A current entry stays current. -/
theorem KeepsComment.isCurrent {name : QualifiedName} {first last : Registry} (h : KeepsComment name first last)
    (hgrows : Grows first last) (hfirst : first.IsCurrent name) : last.IsCurrent name := by
  intro comment hcomment
  rcases h with heq | ⟨-, hdeclared, hread⟩
  · obtain ⟨hdeclared, rfl⟩ := hfirst comment (heq ▸ hcomment)
    exact ⟨hgrows.contains hdeclared, (hgrows.commentOf_eq hdeclared).symm⟩
  · rw [hread] at hcomment
    exact ⟨hdeclared, (Option.some.inj hcomment).symm⟩

/-- A comment that is kept is found again. -/
theorem KeepsComment.comment?_eq {name : QualifiedName} {first last : Registry}
    (h : KeepsComment name first last) {comment : Comment.Container}
    (hfirst : first.comment? name = some comment) : last.comment? name = some comment := by
  rcases h with heq | ⟨hnone, -, -⟩
  · rw [heq, hfirst]
  · rw [hnone] at hfirst
    cases hfirst

/-- Asking for the comment of a name that is not declared leaves an empty comment, if none was read before. -/
theorem comment?_container_of_not_contains {registry : Registry} {name : QualifiedName}
    (hnew : registry.comment? name = none) (h : registry.table.contains name = false) :
    ((container name).run registry).2.comment? name = some {} := by
  obtain ⟨findings, hrun⟩ := container_run_new hnew
  rw [hrun]
  change (registry.withComment name).comment? name = _
  rw [comment?_withComment, if_pos rfl, commentOf_of_not_contains h]

/-- Every call keeps the comment of a name, other than one that asks for it early. -/
theorem Call.apply_keepsComment (registry : Registry) (call : Call) (name : QualifiedName)
    (h : call = .container name → registry.table.contains name = true) :
    KeepsComment name registry (call.apply registry) := by
  by_cases hcall : ∃ other, call = .container other
  · obtain ⟨other, rfl⟩ := hcall
    by_cases hother : other = name
    · subst hother
      exact (container_reads (h rfl)).keepsComment other
    · cases hcomment : registry.comment? other with
      | some comment =>
        rw [apply, container_run_known hcomment]
        exact .inl rfl
      | none =>
        obtain ⟨findings, hrun⟩ := container_run_new hcomment
        rw [apply, hrun]
        exact .inl ((comment?_withComment registry other name).trans (if_neg hother))
  · exact (apply_advances registry fun other hother => hcall ⟨other, hother⟩).keepsComment name

/-- The last call is applied last. -/
theorem after_concat (registry : Registry) (calls : List Call) (call : Call) :
    registry.after (calls ++ [call]) = call.apply (registry.after calls) := by
  rw [after, List.foldl_concat]
  rfl

/-- Asking too early is done before the last call or by it. -/
theorem asksEarly_concat (registry : Registry) (calls : List Call) (call : Call) (name : QualifiedName) :
    registry.AsksEarly (calls ++ [call]) name ↔
      registry.AsksEarly calls name ∨
        call = .container name ∧ (registry.after calls).table.contains name = false := by
  constructor
  · rintro ⟨earlier, later, hcalls, hearly⟩
    rcases later.eq_nil_or_concat with rfl | ⟨rest, final, rfl⟩
    · obtain ⟨rfl, hcall⟩ := List.append_inj' hcalls rfl
      exact .inr ⟨List.singleton_inj.mp hcall, hearly⟩
    · rw [List.concat_eq_append, ← List.cons_append, ← List.append_assoc] at hcalls
      exact .inl ⟨earlier, rest, (List.append_inj' hcalls rfl).1, hearly⟩
  · rintro (⟨earlier, later, rfl, hearly⟩ | ⟨rfl, hearly⟩)
    · exact ⟨earlier, later ++ [call], by simp, hearly⟩
    · exact ⟨calls, [], rfl, hearly⟩

/-- At the start of a run every entry is current. -/
theorem isCurrent_ofResolver (resolver : Resolver) (name : QualifiedName) :
    (ofResolver resolver).IsCurrent name := by
  have hprepares := ofResolver_prepares resolver
  exact (hprepares.keepsComment name).isCurrent hprepares.grows nofun

/-- After any calls, the comment of a name that was asked for early is remembered as empty; any other comment
is remembered as the table has it. -/
theorem memory_after (resolver : Resolver) (calls : List Call) (name : QualifiedName) :
    let start := ofResolver resolver
    (start.AsksEarly calls name → (start.after calls).comment? name = some {}) ∧
      (¬ start.AsksEarly calls name → (start.after calls).IsCurrent name) := by
  intro start
  induction calls using List.reverseRecOn with
  | nil => exact ⟨fun ⟨_, _, hcalls, _⟩ => by simp at hcalls, fun _ => isCurrent_ofResolver resolver name⟩
  | append_singleton calls call ih =>
    obtain ⟨hasked, hcurrent⟩ := ih
    rw [asksEarly_concat, after_concat]
    set registry := start.after calls
    have hgrows := (call.apply_steps registry).grows
    by_cases hearly : call = .container name ∧ registry.table.contains name = false
    · obtain ⟨rfl, hundeclared⟩ := hearly
      refine ⟨fun _ => ?_, fun hnot => absurd (.inr ⟨rfl, hundeclared⟩) hnot⟩
      cases hcomment : registry.comment? name with
      | none => exact comment?_container_of_not_contains hcomment hundeclared
      | some comment =>
        -- A comment that is current belongs to a declared name, so this one was asked for early before.
        have hbefore : start.AsksEarly calls name := by
          by_contra hbefore
          rw [(hcurrent hbefore comment hcomment).1] at hundeclared
          cases hundeclared
        rw [Call.apply, container_run_known hcomment]
        exact hasked hbefore
    · have hkeeps : KeepsComment name registry (call.apply registry) :=
        call.apply_keepsComment registry name fun hcall => by simpa [hcall] using hearly
      refine ⟨fun hearlier => ?_, fun hnot => ?_⟩
      · exact hkeeps.comment?_eq (hasked (hearlier.resolve_right hearly))
      · exact hkeeps.isCurrent hgrows (hcurrent fun hearlier => hnot (.inl hearlier))

/-- Whether a name is taken to be opted in agrees with the table exactly unless the table opts it in and its
comment was asked for before it was declared. -/
theorem isSchema_current_iff (resolver : Resolver) (calls : List Call) (name : QualifiedName) :
    let start := ofResolver resolver
    let registry := start.after calls
    (((isSchema name).run registry).1 = true ↔ registry.table.OptsIn name) ↔
      ¬ (start.AsksEarly calls name ∧ registry.table.OptsIn name) := by
  intro start registry
  obtain ⟨hasked, hcurrent⟩ := memory_after resolver calls name
  rw [isSchema_run_fst]
  by_cases hearly : start.AsksEarly calls name
  · have hcomment : registry.commentFor name = {} := by rw [commentFor, hasked hearly, Option.getD_some]
    have hanswer : registry.isOptedIn name = false := by rw [isOptedIn, hcomment]; exact Bool.and_false _
    simp [hearly, hanswer]
  · have hanswer := isOptedIn_eq_true_iff (hcurrent hearly).commentFor_eq
    exact iff_of_true hanswer fun h => hearly h.1

/-- The comment of a type is asked for, and then its module is loaded for the sake of a field. The type opts
in, and is not taken to. -/
theorem isSchema_stale_pet :
    let resolver : Resolver :=
      { table := (Extraction.ofFiles [ownerFile]).table, loader := ⟨[(⟨["pets"]⟩, .ok petsFile)]⟩ }
    let pet : QualifiedName := ⟨⟨["pets"]⟩, "Pet"⟩
    let registry := (ofResolver resolver).after [.container pet, .synthesize ⟨.root, "Owner"⟩]
    ((isSchema pet).run registry).1 = false ∧ registry.table.OptsIn pet := by
  intro resolver pet registry
  have hpet : (registry.table.get? pet).any (fun declaration =>
      (Comment.lex declaration.docs pet.display).1.directives.any fun directive => directive.key = "schema") =
        true := by
    decide +kernel
  refine ⟨by decide +kernel, ?_⟩
  cases hget : registry.table.get? pet with
  | none => rw [hget] at hpet; cases hpet
  | some declaration =>
    rw [hget, Option.any_some, List.any_eq_true] at hpet
    obtain ⟨directive, hdirective, hkey⟩ := hpet
    exact ⟨declaration, hget, directive, hdirective, of_decide_eq_true hkey⟩

end Registry

end ApiScribe
