import ApiScribe.Operation.Assembly
import ApiScribe.Proofs.Actions

/-!
# What assembling reports about dropped operations

What assembling reports goes into the journal, which only grows. Most of it says nothing about the operation as a
whole: work on its parameters, body and responses reports about these parts, and works on the registry. What these
two kinds of steps do to the assembler, all of this work does; in particular it does not report the operation as
dropped.
-/

namespace ApiScribe

/-- Whether a finding says that an operation was dropped. -/
def Finding.dropsOperation (finding : Finding) : Bool :=
  finding.isError && Text.startsWith "operation dropped" finding.message

namespace Operation

/-- The reports about operations which say that one was dropped. -/
def drops (journal : List (Origin × Finding)) : List Finding :=
  (journal.filter fun entry => entry.1 = .operations && entry.2.dropsOperation).map Prod.snd

/-- An empty journal drops nothing. -/
@[simp] theorem drops_nil : drops [] = [] := rfl

/-- What a journal drops is dropped by its parts in order. -/
@[simp] theorem drops_append (journal more : List (Origin × Finding)) :
    drops (journal ++ more) = drops journal ++ drops more := by
  rw [drops, List.filter_append, List.map_append]
  rfl

/-- The journal has grown, but not by the report of a dropped operation. -/
def Proceeded (first last : Assembler) : Prop :=
  ∃ added, last.journal = first.journal ++ added ∧ drops added = []

/-- A journal that did not change has proceeded. -/
theorem Proceeded.of_eq {first last : Assembler} (h : last.journal = first.journal) : Proceeded first last :=
  ⟨[], by rw [h, List.append_nil], rfl⟩

instance : IsPreorder Assembler Proceeded where
  refl _ := .of_eq rfl
  trans _ _ _ h h' := by
    obtain ⟨added, hadded, hnone⟩ := h
    obtain ⟨more, hmore, hnone'⟩ := h'
    exact ⟨added ++ more, by rw [hmore, hadded, List.append_assoc], by rw [drops_append, hnone, hnone']; rfl⟩

/-- What was noted stands at the end of the journal. -/
theorem journal_note (findings : List Finding) (first : Assembler) :
    ((note findings).run first).2.journal =
      first.journal ++ findings.map fun finding => (Origin.operations, finding) := rfl

/-- Among findings about operations, those that drop one are counted. -/
theorem drops_map_operations (findings : List Finding) :
    drops (findings.map fun finding => (Origin.operations, finding)) = findings.filter Finding.dropsOperation := by
  induction findings with
  | nil => rfl
  | cons finding rest ih =>
    cases h : finding.dropsOperation <;> simp_all [drops]

/-- Whatever the registry reports, it is not about operations. -/
theorem onRegistry_proceeded {α : Type} (action : StateM Registry α) : Moves Proceeded (onRegistry action) := by
  intro first
  refine ⟨_, rfl, ?_⟩
  rw [drops, List.map_eq_nil_iff, List.filter_eq_nil_iff]
  intro entry hentry
  obtain ⟨finding, -, rfl⟩ := List.mem_map.mp hentry
  simp

/-- Errors about a part of an operation, and all warnings. -/
def concernsPart : Cause → Bool
  | .malformedOperation _ | .bodyWithoutType | .parameterDropped _ _ | .bodyDropped _
  | .responseWithoutContent _ _ => true
  | cause => cause.severity = .warning

/-- A text begins as its first part does. -/
theorem head?_append_of_some {text more : String} {first : Char} (h : text.toList.head? = some first) :
    (text ++ more).toList.head? = some first := by
  rw [String.toList_append, List.head?_append, h]
  rfl

/-- A message that begins otherwise does not say that an operation was dropped. -/
theorem dropsOperation_of_head {subject : String} {cause : Cause} {first : Char}
    (h : cause.message.toList.head? = some first) (hfirst : first ≠ 'o') :
    (Finding.mk subject cause).dropsOperation = false := by
  obtain ⟨rest, hrest⟩ := List.head?_eq_some_iff.mp h
  have hmessage : (Finding.mk subject cause).message.toList = first :: rest := hrest
  have hlead : "operation dropped".toList = 'o' :: "peration dropped".toList := by decide
  rw [Finding.dropsOperation, Text.startsWith, hmessage, hlead, Text.stripLead, if_neg hfirst.symm,
    Option.isSome_none, Bool.and_false]

/-- What concerns a part of an operation does not drop it. -/
theorem dropsOperation_of_concernsPart {subject : String} {cause : Cause} (h : concernsPart cause = true) :
    (Finding.mk subject cause).dropsOperation = false := by
  have hwarning (hseverity : cause.severity = .warning) : (Finding.mk subject cause).dropsOperation = false := by
    rw [Finding.dropsOperation, Finding.isError, Finding.severity, hseverity]
    rfl
  cases cause with
  | malformedOperation argument =>
    exact dropsOperation_of_head (head?_append_of_some (head?_append_of_some (by decide))) (by decide : 'm' ≠ 'o')
  | bodyWithoutType => exact dropsOperation_of_head (by decide) (by decide : 'b' ≠ 'o')
  | parameterDropped parameter fault =>
    refine dropsOperation_of_head ?_ (by decide : 'p' ≠ 'o')
    exact head?_append_of_some (head?_append_of_some (head?_append_of_some (by decide)))
  | bodyDropped fault => exact dropsOperation_of_head (head?_append_of_some (by decide)) (by decide : 'r' ≠ 'o')
  | responseWithoutContent status fault =>
    refine dropsOperation_of_head ?_ (by decide : 'r' ≠ 'o')
    exact head?_append_of_some (head?_append_of_some (head?_append_of_some (by decide)))
  | _ => exact hwarning (of_decide_eq_true h)

/-- Notes about parts drop nothing. -/
theorem note_proceeded {findings : List Finding} (h : ∀ finding ∈ findings, concernsPart finding.cause = true) :
    Moves Proceeded (note findings) := by
  intro first
  refine ⟨_, journal_note findings first, ?_⟩
  rw [drops_map_operations, List.filter_eq_nil_iff]
  intro finding hfinding
  rw [dropsOperation_of_concernsPart (h finding hfinding)]
  exact Bool.false_ne_true

/-- What is wrong in a comment concerns single lines and directives. -/
theorem concernsPart_of_mem_lex {docs : List String} {subject : String} {finding : Finding}
    (h : finding ∈ (Comment.lex docs subject).2) : concernsPart finding.cause = true := by
  unfold Comment.lex Comment.LexState.finish at h
  dsimp only at h
  split at h
  · rw [List.mem_singleton.mp h]
    rfl
  · cases h

/-- What is wrong with the comment of a type concerns a part. -/
theorem concernsPart_of_mem_container {docs : List String} {subject : String} {finding : Finding}
    (h : finding ∈ (Comment.Container.read docs subject).2) : concernsPart finding.cause = true := by
  rcases List.mem_append.mp h with h | h
  · exact concernsPart_of_mem_lex h
  · obtain ⟨directive, -, hfinding⟩ := List.mem_flatMap.mp h
    grind [Comment.Container.complaints, concernsPart, Cause.severity]

/-- What is wrong with the comment of an operation concerns a part. -/
theorem concernsPart_of_mem_operation {docs : List String} {subject : String} {finding : Finding}
    (h : finding ∈ (Comment.Operation.read docs subject).2) : concernsPart finding.cause = true := by
  rcases List.mem_append.mp h with h | h
  · exact concernsPart_of_mem_lex h
  · obtain ⟨directive, -, hfinding⟩ := List.mem_flatMap.mp h
    grind [Comment.Operation.complaints, concernsPart, Cause.severity]

/-- A relation that work on parts of an operation follows: it reports about parts and works on the registry. -/
class FollowsParts (along : Assembler → Assembler → Prop) : Prop extends IsPreorder Assembler along where
  note {findings : List Finding} (h : ∀ finding ∈ findings, concernsPart finding.cause = true) :
    Moves along (note findings)
  onRegistry {α : Type} (action : StateM Registry α) : Moves along (onRegistry action)

instance : FollowsParts Proceeded where
  note := note_proceeded
  onRegistry := onRegistry_proceeded

variable {α β : Type} {along : Assembler → Assembler → Prop}

/-- From every assembler the action moves along the relation, and its value is as described. -/
def Proceeds (along : Assembler → Assembler → Prop) (action : Assembling α) (after : α → Prop) : Prop :=
  ∀ first, along first (action.run first).2 ∧ after (action.run first).1

namespace Proceeds

variable {action : Assembling α} {after : α → Prop}

/-- An action that moves along the relation proceeds. -/
theorem ofMoves (h : Moves along action) : Proceeds along action fun _ => True := fun first => ⟨h first, trivial⟩

/-- An action that starts by reading the assembler. -/
theorem get_bind {next : Assembler → Assembling α} (h : ∀ assembler, Proceeds along (next assembler) after) :
    Proceeds along (get >>= next) after := fun first => h first first

/-- What is said about the value may be weakened. -/
theorem mono {weaker : α → Prop} (h : Proceeds along action after) (hweaker : ∀ value, after value → weaker value) :
    Proceeds along action weaker := fun first => ⟨(h first).1, hweaker _ (h first).2⟩

variable [IsPreorder Assembler along]

/-- An action that does nothing proceeds. -/
theorem pure {value : α} (h : after value) : Proceeds along (pure value) after :=
  fun first => ⟨refl_of along first, h⟩

/-- Actions proceed one after another. -/
theorem bind {next : α → Assembling β} {final : β → Prop} (h : Proceeds along action after)
    (hnext : ∀ value, after value → Proceeds along (next value) final) :
    Proceeds along (action >>= next) final := by
  intro first
  obtain ⟨hfirst, hvalue⟩ := h first
  obtain ⟨hlast, hfinal⟩ := hnext _ hvalue (action.run first).2
  exact ⟨trans_of along hfirst hlast, hfinal⟩

end Proceeds

variable [FollowsParts along]

/-- Notes about parts proceed. -/
theorem note_proceeds {findings : List Finding} (h : ∀ finding ∈ findings, concernsPart finding.cause = true) :
    Proceeds along (note findings) fun _ => True := .ofMoves (FollowsParts.note h)

/-- A complaint about a part proceeds. -/
theorem complain_proceeds {subject : String} {cause : Cause} (h : concernsPart cause = true) :
    Proceeds along (complain subject cause) fun _ => True :=
  note_proceeds fun _ hfinding => List.mem_singleton.mp hfinding ▸ h

/-- An action on the registry proceeds. -/
theorem onRegistry_proceeds (action : StateM Registry α) : Proceeds along (onRegistry action) fun _ => True :=
  .ofMoves (FollowsParts.onRegistry action)

end Operation

end ApiScribe
