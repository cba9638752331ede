import ApiScribe.Comment.Directive
import ApiScribe.Proofs.Text.Cutting
import Mathlib.Data.List.ReduceOption

/-!
# Every line of a comment is accounted for

What a comment says is stated here line by line, each line seen with the lines before and after it, and not by a
state that is carried along. A line with a directive gives one directive, unless it closes the block that the
directive before it opens, or opens a block itself and no directive follows. The body of a block are the lines up to
the next directive. Plain text is the first run of text lines outside of all bodies.

Reading carries a pending block instead. It agrees because the pending block is at any time the one that the latest
directive opens, and because the lines still to come decide what becomes of it.
-/

namespace ApiScribe

namespace Comment

/-- A line of a comment without its markers: blanks are dropped at both ends, then slashes, exclamation marks and
stars at the front, and then blanks at both ends again. -/
def Unmarks (raw line : String) : Prop :=
  ∃ inner unslashed unbanged unstarred, Text.Trims Text.isBlank raw.toList inner ∧
    Text.TrimsStart (· == '/') inner unslashed ∧ Text.TrimsStart (· == '!') unslashed unbanged ∧
    Text.TrimsStart (· == '*') unbanged unstarred ∧ Text.Trims Text.isBlank unstarred line.toList

/-- The markers of a line are stripped. -/
theorem stripMarkers_eq_iff {raw line : String} : stripMarkers raw = line ↔ Unmarks raw line := by
  constructor
  · rintro rfl
    exact ⟨_, _, _, _, Text.trim_eq_iff.mp rfl, Text.trimStartOf_eq_iff.mp rfl, Text.trimStartOf_eq_iff.mp rfl,
      Text.trimStartOf_eq_iff.mp rfl, Text.trim_eq_iff.mp rfl⟩
  · rintro ⟨inner, unslashed, unbanged, unstarred, hinner, hslashes, hbangs, hstars, hline⟩
    rw [← Text.strip_eq_iff] at hinner hline
    rw [← Text.dropWhile_eq_iff] at hslashes hbangs hstars
    simp [stripMarkers, Text.trim, Text.trimStartOf, hinner, hslashes, hbangs, hstars, hline]

/-- The form of a name in which names are compared: hyphens and underscores are left out, and every other character
is put in lower case. -/
inductive Normalizes : List Char → List Char → Prop where
  | nil : Normalizes [] []
  | dropped {c : Char} {name normal : List Char} (hc : c = '-' ∨ c = '_') (hrest : Normalizes name normal) :
      Normalizes (c :: name) normal
  | lowered {c : Char} {name normal : List Char} (hc : ¬ (c = '-' ∨ c = '_')) (hrest : Normalizes name normal) :
      Normalizes (c :: name) (Text.lowerChar c ++ normal)

/-- Names are compared in their normal form. -/
theorem normalName_eq_iff {name normal : String} :
    normalName name = normal ↔ Normalizes name.toList normal.toList := by
  rw [normalName, ← String.toList_inj, String.toList_ofList]
  generalize normal.toList = normal
  induction name.toList generalizing normal with
  | nil =>
    constructor
    · rintro rfl
      exact .nil
    · rintro ⟨⟩
      rfl
  | cons c name ih =>
    by_cases hc : c = '-' ∨ c = '_'
    · have hdropped : (c != '-' && c != '_') = false := by rcases hc with rfl | rfl <;> rfl
      rw [List.filter_cons, if_neg (by simp [hdropped]), ih]
      constructor
      · exact .dropped hc
      · rintro (⟨⟩ | ⟨-, hrest⟩ | ⟨hkept, -⟩)
        · exact hrest
        · exact absurd hc hkept
    · have hkept : (c != '-' && c != '_') = true := by simpa [not_or] using hc
      rw [List.filter_cons, if_pos hkept, List.flatMap_cons]
      constructor
      · rintro rfl
        exact .lowered hc ((ih _).mp rfl)
      · rintro (⟨⟩ | ⟨hdropped, -⟩ | ⟨-, hrest⟩)
        · exact absurd hdropped hc
        · rw [(ih _).mpr hrest]

/-- The directive on a line of a comment. -/
def directiveOn? (raw : String) : Option Directive := Directive.ofLine? (stripMarkers raw)

/-- The directive on a line is read from the line without its markers. -/
theorem directiveOn?_eq (raw : String) : directiveOn? raw = Directive.ofLine? (stripMarkers raw) := rfl

-- A match on the directive of an unknown line is not to be decided by looking into its text.
attribute [irreducible] directiveOn?

namespace Directive

/-- The directive opens a block: the last word of its argument is `start`. -/
def opens (directive : Directive) : Bool := (Text.words directive.argument).getLast? == some "start"

/-- The words of the argument in front of the last one. -/
def leadWords (directive : Directive) : List String := (Text.words directive.argument).dropLast

/-- A directive that opens a block is told by its last word, and the words before that are joined. -/
theorem blockLead?_eq (directive : Directive) :
    directive.blockLead? = if directive.opens then some (Text.join " " directive.leadWords) else none := by
  unfold blockLead? opens leadWords
  rcases List.eq_nil_or_concat (Text.words directive.argument) with hnil | ⟨lead, last, hwords⟩
  · rw [hnil]
    rfl
  · rw [hwords, List.concat_eq_append, List.reverse_append, List.reverse_singleton, List.singleton_append,
      List.getLast?_concat, List.dropLast_concat]
    by_cases hlast : last = "start"
    · simp [hlast]
    · simp [hlast]

/-- A directive that closes a block does not open one. -/
theorem opens_eq_false_of_closes {closing opening : Directive} (h : closing.closes opening) :
    closing.opens = false := by
  unfold closes at h
  unfold opens
  rw [Bool.and_eq_true, beq_iff_eq, beq_iff_eq] at h
  rw [h.2]
  decide

/-- A stripped line says the directive: `openapi:`, which an `@` may precede, then the name up to the first blank,
then a rest whose trimmed form is the argument. -/
def WrittenOn (directive : Directive) (line : String) : Prop :=
  ∃ lead rest : String, (lead = "" ∨ lead = "@") ∧ line = lead ++ (directiveMark ++ (directive.name ++ rest)) ∧
    directive.name ≠ "" ∧ (∀ c ∈ directive.name.toList, Text.isBlank c = false) ∧
    (∀ c, rest.toList.head? = some c → Text.isBlank c = true) ∧
    Text.Trims Text.isBlank rest.toList directive.argument.toList

/-- What follows the mark is cut into the name and the argument. -/
theorem ofLine?_of_marked {line name rest : String}
    (hline : (Text.dropLead "@" line).getD line = directiveMark ++ (name ++ rest))
    (hname : ∀ c ∈ name.toList, Text.isBlank c = false)
    (hrest : ∀ c, rest.toList.head? = some c → Text.isBlank c = true) :
    ofLine? line = if name = "" then none else some ⟨name, Text.trim rest⟩ := by
  unfold ofLine?
  dsimp only
  rw [hline, Text.dropLead_eq_some_iff.mpr rfl]
  cases hchars : rest.toList with
  | nil =>
    obtain rfl : rest = "" := String.toList_eq_nil_iff.mp hchars
    have hsplit : Text.splitAtBlank name = none := by
      rw [Text.splitAtBlank, Text.cutAt_eq_none hname, Option.map_none]
    have htrim : Text.trim "" = "" := by decide
    simp only [String.append_empty, hsplit, htrim]
  | cons c cs =>
    have hc : Text.isBlank c = true := hrest c (by rw [hchars, List.head?_cons])
    have htrim : Text.trim rest = Text.trim (String.ofList cs) := by
      rw [← Text.trim_cons hc, ← hchars, String.ofList_toList]
    have hsplit : Text.splitAtBlank (name ++ rest) = some (name, String.ofList cs) := by
      rw [Text.splitAtBlank, String.toList_append, hchars, Text.cutAt_append_cons hname hc, Option.map_some,
        String.ofList_toList]
    simp only [hsplit, htrim]

/-- A directive is read from exactly the lines that say it. -/
theorem ofLine?_eq_some_iff {line : String} {directive : Directive} :
    ofLine? line = some directive ↔ directive.WrittenOn line := by
  constructor
  · intro h
    obtain ⟨marked, hmarked⟩ : ∃ marked, (Text.dropLead "@" line).getD line = directiveMark ++ marked := by
      cases hdrop : Text.dropLead directiveMark ((Text.dropLead "@" line).getD line) with
      | none =>
        unfold ofLine? at h
        dsimp only at h
        rw [hdrop] at h
        cases h
      | some marked => exact ⟨marked, Text.dropLead_eq_some_iff.mp hdrop⟩
    have hlead : ∃ lead, (lead = "" ∨ lead = "@") ∧ line = lead ++ (Text.dropLead "@" line).getD line := by
      cases hat : Text.dropLead "@" line with
      | none => exact ⟨"", .inl rfl, (String.empty_append).symm⟩
      | some rest => exact ⟨"@", .inr rfl, Text.dropLead_eq_some_iff.mp hat⟩
    obtain ⟨lead, hlead, hline⟩ := hlead
    obtain ⟨name, rest, rfl, hname, hrest⟩ := Text.exists_eq_append_of_blank marked
    rw [ofLine?_of_marked hmarked hname hrest] at h
    split at h
    · cases h
    · next hne =>
      cases h
      rw [hmarked] at hline
      exact ⟨lead, rest, hlead, hline, hne, hname, hrest, Text.trim_eq_iff.mp rfl⟩
  · rintro ⟨lead, rest, hlead, hline, hne, hname, hrest, hargument⟩
    have hmarked : (Text.dropLead "@" line).getD line = directiveMark ++ (directive.name ++ rest) := by
      rcases hlead with rfl | rfl
      · have hnone : Text.dropLead "@" line = none := by
          rw [hline, String.empty_append, Text.dropLead, String.toList_append]
          rfl
        rw [hnone, Option.getD_none, hline, String.empty_append]
      · rw [Text.dropLead_eq_some_iff.mpr hline, Option.getD_some]
    rw [ofLine?_of_marked hmarked hname hrest, if_neg hne, Text.trim_eq_iff.mpr hargument]

end Directive

/-- The block that is open after some lines: the one that the latest directive opens. -/
def openingAfter (lines : List String) : Option Directive :=
  (lines.filterMap directiveOn?).getLast?.filter Directive.opens

/-- The lines up to the next directive, stripped. -/
def bodyOf (lines : List String) : List String :=
  (lines.takeWhile fun raw => (directiveOn? raw).isNone).map stripMarkers

/-- The argument of a block: the words of its opening line, then its body without empty lines at the edges. -/
def blockArgument (lead body : List String) : String :=
  Text.join " " (lead ++ [Text.join "\n" (trimEmptyEdges body)])

/-- A line of a comment with the lines before and after it. -/
structure Place where
  before : List String
  line : String
  after : List String

namespace Place

/-- The line is not read as a directive of its own, since it closes the block that is open. -/
def isClosing (place : Place) : Bool :=
  match openingAfter place.before, directiveOn? place.line with
  | some opening, some closing => closing.closes opening
  | _, _ => false

/-- The directive that the line stands for. -/
def yield? (place : Place) : Option Directive :=
  match directiveOn? place.line with
  | none => none
  | some directive =>
    if place.isClosing then none
    else if directive.opens then
      if hasDirective place.after then
        some ⟨directive.name, blockArgument directive.leadWords (bodyOf place.after)⟩
      else none
    else some directive

/-- The text of the line, if it is plain text: it has no directive, is not empty and is outside of all blocks. -/
def plain? (place : Place) : Option String :=
  if (directiveOn? place.line).isNone ∧ openingAfter place.before = none ∧ stripMarkers place.line ≠ "" then
    some (stripMarkers place.line)
  else none

end Place

/-- The places of the lines that follow some others. -/
def placesFrom (before : List String) : List String → List Place
  | [] => []
  | line :: after => ⟨before, line, after⟩ :: placesFrom (before ++ [line]) after

/-- Every line of a comment in its place. -/
def places (lines : List String) : List Place := placesFrom [] lines

example : places ["a", "b", "c"] = [⟨[], "a", ["b", "c"]⟩, ⟨["a"], "b", ["c"]⟩, ⟨["a", "b"], "c", []⟩] := rfl

/-- The items up to the first gap. -/
def leadingRun (items : List (Option String)) : List String := (items.takeWhile Option.isSome).reduceOption

/-- The first items without a gap between them. -/
def firstRun (items : List (Option String)) : List String := leadingRun (items.dropWhile Option.isNone)

/-- A line without a directive leaves a block open, any other line decides by its own directive. -/
theorem openingAfter_concat (lines : List String) (raw : String) :
    openingAfter (lines ++ [raw]) =
      match directiveOn? raw with
      | some directive => if directive.opens then some directive else none
      | none => openingAfter lines := by
  unfold openingAfter
  rw [List.filterMap_append]
  cases h : directiveOn? raw with
  | none => simp [h]
  | some directive => simp [h, Option.filter]

section Lines

variable {raw : String} {rest : List String}

/-- A line without a directive does not matter. -/
theorem hasDirective_cons_of_none (h : directiveOn? raw = none) :
    hasDirective (raw :: rest) = hasDirective rest := by
  rw [directiveOn?_eq] at h
  rw [hasDirective, List.any_cons, h, Option.isSome_none, Bool.false_or, hasDirective]

/-- A line with a directive decides. -/
theorem hasDirective_cons_of_some {directive : Directive} (h : directiveOn? raw = some directive) :
    hasDirective (raw :: rest) = true := by
  rw [directiveOn?_eq] at h
  rw [hasDirective, List.any_cons, h, Option.isSome_some, Bool.true_or]

/-- A line without a directive belongs to the body. -/
theorem bodyOf_cons_of_none (h : directiveOn? raw = none) :
    bodyOf (raw :: rest) = stripMarkers raw :: bodyOf rest := by
  rw [bodyOf, List.takeWhile_cons_of_pos (by rw [h, Option.isNone_none]), List.map_cons, bodyOf]

/-- A line with a directive ends the body. -/
theorem bodyOf_cons_of_some {directive : Directive} (h : directiveOn? raw = some directive) :
    bodyOf (raw :: rest) = [] := by
  rw [bodyOf, List.takeWhile_cons_of_neg (by simp [h]), List.map_nil]

end Lines

/-- What a block comes to when it is closed. -/
theorem OpenBlock.close_eq {block : OpenBlock} (h : block.lead = Text.join " " block.opening.leadWords) :
    block.close = ⟨block.opening.name, blockArgument block.opening.leadWords block.body⟩ := by
  have hwords : ∀ word ∈ block.opening.leadWords, word ≠ "" := fun word hword =>
    Text.ne_empty_of_mem_words (List.dropLast_subset _ hword)
  simp only [OpenBlock.close, blockArgument, Text.join_concat, h, Text.join_eq_empty_iff hwords]

/-- A line with a directive is read as this directive. -/
theorem ofRaw_of_some {raw : String} {directive : Directive} (h : directiveOn? raw = some directive) :
    CommentLine.ofRaw raw = .directive directive := by
  unfold CommentLine.ofRaw
  rw [directiveOn?_eq] at h
  dsimp only
  rw [h]

/-- A line without a directive is blank or text. -/
theorem ofRaw_of_none {raw : String} (h : directiveOn? raw = none) :
    CommentLine.ofRaw raw = if stripMarkers raw = "" then .blank else .text (stripMarkers raw) := by
  unfold CommentLine.ofRaw
  rw [directiveOn?_eq] at h
  dsimp only
  rw [h]

namespace LexState

/-- A state with its pending block closed. -/
def settle (state : LexState) : LexState :=
  { state with directives := state.directives ++ (state.pending.map OpenBlock.close).toList, pending := none }

/-- A state after a line without directive outside of all blocks. -/
def takeText (state : LexState) (text : String) : LexState :=
  if text = "" then { state with plainClosed := state.plainClosed || !state.plain.isEmpty }
  else if state.plainClosed then state
  else { state with plain := state.plain ++ [text] }

variable (state : LexState) {raw : String}

/-- A line without a directive is text when no block is open. -/
theorem step_text (hraw : directiveOn? raw = none) (hpending : state.pending = none) :
    state.step (CommentLine.ofRaw raw) = state.takeText (stripMarkers raw) := by
  rw [ofRaw_of_none hraw, takeText]
  split <;> simp only [step, hpending]

/-- A line without a directive goes to the body of the open block. -/
theorem step_body (hraw : directiveOn? raw = none) {block : OpenBlock} (hpending : state.pending = some block) :
    state.step (CommentLine.ofRaw raw) =
      { state with pending := some { block with body := block.body ++ [stripMarkers raw] } } := by
  rw [ofRaw_of_none hraw]
  split
  · next hempty => simp only [step, hpending, CommentLine.content, hempty]
  · simp only [step, hpending, CommentLine.content]

/-- A line that closes the open block settles it and gives nothing else. -/
theorem step_closing {closing : Directive} (hraw : directiveOn? raw = some closing) {block : OpenBlock}
    (hpending : state.pending = some block) (hcloses : closing.closes block.opening) :
    state.step (CommentLine.ofRaw raw) = state.settle := by
  rw [ofRaw_of_some hraw]
  simp only [step, hpending, hcloses, if_true, settle, Option.map_some, Option.toList_some]

/-- Any other directive settles the open block, if there is one, and is taken. -/
theorem step_directive {directive : Directive} (hraw : directiveOn? raw = some directive)
    (hcloses : ∀ block, state.pending = some block → directive.closes block.opening = false) :
    state.step (CommentLine.ofRaw raw) = state.settle.takeDirective directive := by
  rw [ofRaw_of_some hraw]
  cases hpending : state.pending with
  | none =>
    simp only [step, hpending, settle, Option.map_none, Option.toList_none, List.append_nil]
    rw [← hpending]
  | some block =>
    simp only [step, hpending, hcloses block hpending, Bool.false_eq_true, if_false, settle, Option.map_some,
      Option.toList_some]

/-- A directive that opens a block is pending. -/
theorem takeDirective_of_opens {directive : Directive} (h : directive.opens = true) :
    state.takeDirective directive =
      { state with
        plainClosed := state.plainClosed || !state.plain.isEmpty
        pending := some ⟨directive, Text.join " " directive.leadWords, []⟩ } := by
  simp only [takeDirective, Directive.blockLead?_eq, h, if_true]

/-- A directive that opens no block is added. -/
theorem takeDirective_of_not_opens {directive : Directive} (h : directive.opens = false) :
    state.takeDirective directive =
      { state with
        plainClosed := state.plainClosed || !state.plain.isEmpty
        directives := state.directives ++ [directive] } := by
  simp only [takeDirective, Directive.blockLead?_eq, h, Bool.false_eq_true, if_false]

/-- The pending block of a state is the one that is open after the lines read, and no plain text is under way
while a block is pending. -/
structure Tracks (state : LexState) (lines : List String) : Prop where
  opening : state.pending.map OpenBlock.opening = openingAfter lines
  lead (block : OpenBlock) : state.pending = some block → block.lead = Text.join " " block.opening.leadWords
  plain (block : OpenBlock) : state.pending = some block → (state.plainClosed || state.plain.isEmpty) = true

/-- Nothing is to be shown of a state outside of all blocks. -/
theorem Tracks.of_none {state : LexState} {lines : List String} (hpending : state.pending = none)
    (hopening : openingAfter lines = none) : state.Tracks lines where
  opening := by rw [hpending, hopening, Option.map_none]
  lead block hsome := by
    rw [hpending] at hsome
    cases hsome
  plain block hsome := by
    rw [hpending] at hsome
    cases hsome

/-- What the next line does to a state: it is text outside of all blocks, a line of the pending block or the line
that closes it, or else its directive is taken when the pending block is closed. -/
theorem Tracks.step_cases {state : LexState} {lines : List String} (h : state.Tracks lines) (raw : String) :
    (directiveOn? raw = none ∧ openingAfter lines = none ∧ state.pending = none ∧
      state.step (CommentLine.ofRaw raw) = state.takeText (stripMarkers raw)) ∨
    (∃ block, directiveOn? raw = none ∧ openingAfter lines = some block.opening ∧ state.pending = some block ∧
      state.step (CommentLine.ofRaw raw) =
        { state with pending := some { block with body := block.body ++ [stripMarkers raw] } }) ∨
    (∃ block closing, directiveOn? raw = some closing ∧ openingAfter lines = some block.opening ∧
      closing.closes block.opening = true ∧ state.pending = some block ∧
      state.step (CommentLine.ofRaw raw) = state.settle) ∨
    ∃ directive, directiveOn? raw = some directive ∧
      (∀ opening, openingAfter lines = some opening → directive.closes opening = false) ∧
      state.step (CommentLine.ofRaw raw) = state.settle.takeDirective directive := by
  have hopening := h.opening
  cases hpending : state.pending with
  | none =>
    rw [hpending, Option.map_none] at hopening
    cases hraw : directiveOn? raw with
    | none => exact .inl ⟨rfl, hopening.symm, rfl, step_text state hraw hpending⟩
    | some directive =>
      refine .inr (.inr (.inr ⟨directive, rfl, fun opening hsome => ?_, ?_⟩))
      · rw [← hopening] at hsome
        cases hsome
      · exact step_directive state hraw fun block hsome => by rw [hpending] at hsome; cases hsome
  | some block =>
    rw [hpending, Option.map_some] at hopening
    cases hraw : directiveOn? raw with
    | none => exact .inr (.inl ⟨block, rfl, hopening.symm, rfl, step_body state hraw hpending⟩)
    | some directive =>
      cases hcloses : directive.closes block.opening with
      | true =>
        exact .inr (.inr (.inl ⟨block, directive, rfl, hopening.symm, hcloses, rfl,
          step_closing state hraw hpending hcloses⟩))
      | false =>
        refine .inr (.inr (.inr ⟨directive, rfl, fun opening hsome => ?_, ?_⟩))
        · rw [← hopening] at hsome
          cases hsome
          exact hcloses
        · refine step_directive state hraw fun other hsome => ?_
          rw [hpending] at hsome
          cases hsome
          exact hcloses

/-- The directives that a state comes to once the lines that follow are known. -/
def outcome (state : LexState) (rest : List String) : List Directive :=
  match state.pending with
  | some block =>
    if hasDirective rest then state.directives ++ [{ block with body := block.body ++ bodyOf rest }.close]
    else state.directives
  | none => state.directives

/-- The line of a directive settles what is pending. -/
theorem outcome_cons_of_some {directive : Directive} (hraw : directiveOn? raw = some directive)
    (rest : List String) : state.outcome (raw :: rest) = state.settle.directives := by
  unfold outcome settle
  cases state.pending with
  | none => exact (List.append_nil _).symm
  | some block =>
    simp only [hasDirective_cons_of_some hraw, bodyOf_cons_of_some hraw, if_true, List.append_nil, Option.map_some,
      Option.toList_some]

/-- The plain text that a state comes to once the plain text of the lines that follow is known. -/
def plainWith (state : LexState) (items : List (Option String)) : List String :=
  if state.plainClosed then state.plain
  else if state.plain.isEmpty then firstRun items
  else state.plain ++ leadingRun items

/-- A line of text is added to the plain text unless that is closed. -/
theorem plainWith_text (text : String) (items : List (Option String)) :
    (if state.plainClosed then state else { state with plain := state.plain ++ [text] }).plainWith items =
      state.plainWith (some text :: items) := by
  unfold plainWith
  cases hclosed : state.plainClosed <;> cases hplain : state.plain <;>
    simp [hclosed, hplain, firstRun, leadingRun, List.reduceOption]

/-- A line that is no plain text ends the plain text that is under way. -/
theorem plainWith_closed (items : List (Option String)) :
    { state with plainClosed := state.plainClosed || !state.plain.isEmpty }.plainWith items =
      state.plainWith (none :: items) := by
  unfold plainWith
  cases hclosed : state.plainClosed <;> cases hplain : state.plain <;>
    simp [firstRun, leadingRun, List.reduceOption]

/-- A gap makes no difference to plain text that is closed or has not begun. -/
theorem plainWith_gap (h : (state.plainClosed || state.plain.isEmpty) = true) (items : List (Option String)) :
    state.plainWith items = state.plainWith (none :: items) := by
  unfold plainWith
  cases hclosed : state.plainClosed <;> cases hplain : state.plain <;>
    simp_all [firstRun, leadingRun, List.reduceOption]

/-- Text leaves the pending block alone. -/
theorem takeText_pending (text : String) : (state.takeText text).pending = state.pending := by
  unfold takeText
  split
  · rfl
  · split <;> rfl

/-- Text leaves the directives alone. -/
theorem takeText_directives (text : String) : (state.takeText text).directives = state.directives := by
  unfold takeText
  split
  · rfl
  · split <;> rfl

namespace Tracks

variable {state : LexState} {lines : List String} (h : state.Tracks lines) (raw : String)

include h

/-- After one more line the pending block is again the one that is open. -/
theorem step : (state.step (CommentLine.ofRaw raw)).Tracks (lines ++ [raw]) := by
  rcases h.step_cases raw with ⟨hraw, hopening, hpending, hstep⟩ | ⟨block, hraw, hopening, hpending, hstep⟩ |
    ⟨block, closing, hraw, -, hcloses, -, hstep⟩ | ⟨directive, hraw, -, hstep⟩
  · rw [hstep]
    refine .of_none ?_ ?_
    · rw [takeText_pending, hpending]
    · rw [openingAfter_concat, hraw, hopening]
  · rw [hstep]
    refine ⟨?_, fun other hsome => ?_, fun other _ => h.plain block hpending⟩
    · rw [openingAfter_concat, hraw, hopening, Option.map_some]
    · cases hsome
      exact h.lead block hpending
  · rw [hstep]
    refine .of_none rfl ?_
    rw [openingAfter_concat, hraw]
    exact if_neg (Bool.eq_false_iff.mp (Directive.opens_eq_false_of_closes hcloses))
  · rw [hstep]
    cases hopens : directive.opens with
    | true =>
      rw [takeDirective_of_opens _ hopens]
      refine ⟨?_, fun other hsome => ?_, fun other _ => ?_⟩
      · rw [openingAfter_concat, hraw]
        exact (if_pos hopens).symm
      · cases hsome
        rfl
      · cases state.plainClosed <;> cases hplain : state.plain <;> simp [settle, hplain]
    | false =>
      rw [takeDirective_of_not_opens _ hopens]
      refine .of_none rfl ?_
      rw [openingAfter_concat, hraw]
      exact if_neg (Bool.eq_false_iff.mp hopens)

/-- One more line adds to the directives what it yields in its place. -/
theorem outcome_step (rest : List String) :
    (state.step (CommentLine.ofRaw raw)).outcome rest =
      state.outcome (raw :: rest) ++ (Place.yield? ⟨lines, raw, rest⟩).toList := by
  rcases h.step_cases raw with ⟨hraw, -, hpending, hstep⟩ | ⟨block, hraw, -, hpending, hstep⟩ |
    ⟨block, closing, hraw, hopening, hcloses, hpending, hstep⟩ | ⟨directive, hraw, hcloses, hstep⟩
  · have hyield : Place.yield? ⟨lines, raw, rest⟩ = none := by simp only [Place.yield?, hraw]
    rw [hstep, hyield, Option.toList_none, List.append_nil]
    simp only [outcome, takeText_pending, takeText_directives, hpending]
  · have hyield : Place.yield? ⟨lines, raw, rest⟩ = none := by simp only [Place.yield?, hraw]
    rw [hstep, hyield, Option.toList_none, List.append_nil]
    simp only [outcome, hpending, hasDirective_cons_of_none hraw, bodyOf_cons_of_none hraw, List.append_assoc,
      List.singleton_append]
  · have hyield : Place.yield? ⟨lines, raw, rest⟩ = none := by
      simp only [Place.yield?, Place.isClosing, hraw, hopening, hcloses, if_true]
    rw [hstep, hyield, Option.toList_none, List.append_nil, outcome_cons_of_some state hraw]
    rfl
  · have hclosing : Place.isClosing ⟨lines, raw, rest⟩ = false := by
      unfold Place.isClosing
      cases hopening : openingAfter lines with
      | none => rfl
      | some opening => simp only [hraw, hcloses opening hopening]
    rw [hstep, outcome_cons_of_some state hraw]
    cases hopens : directive.opens with
    | true =>
      rw [takeDirective_of_opens _ hopens]
      simp only [outcome, Place.yield?, hraw, hclosing, hopens, Bool.false_eq_true, if_false, if_true,
        List.nil_append]
      split
      · rw [OpenBlock.close_eq rfl, Option.toList_some]
      · rw [Option.toList_none, List.append_nil]
    | false =>
      rw [takeDirective_of_not_opens _ hopens]
      simp only [outcome, Place.yield?, hraw, hclosing, hopens, Bool.false_eq_true, if_false, Option.toList_some]
      rfl

/-- One more line adds to the plain text what it holds of it in its place. -/
theorem plainWith_step (rest : List String) (items : List (Option String)) :
    (state.step (CommentLine.ofRaw raw)).plainWith items =
      state.plainWith (Place.plain? ⟨lines, raw, rest⟩ :: items) := by
  rcases h.step_cases raw with ⟨hraw, hopening, -, hstep⟩ | ⟨block, -, hopening, hpending, hstep⟩ |
    ⟨block, closing, hraw, -, -, hpending, hstep⟩ | ⟨directive, hraw, -, hstep⟩
  · rw [hstep]
    by_cases hempty : stripMarkers raw = ""
    · have hplain : Place.plain? ⟨lines, raw, rest⟩ = none := if_neg fun hall => hall.2.2 hempty
      rw [hplain, takeText, if_pos hempty]
      exact state.plainWith_closed items
    · have hplain : Place.plain? ⟨lines, raw, rest⟩ = some (stripMarkers raw) :=
        if_pos ⟨by rw [hraw, Option.isNone_none], hopening, hempty⟩
      rw [hplain, takeText, if_neg hempty]
      exact state.plainWith_text (stripMarkers raw) items
  · have hplain : Place.plain? ⟨lines, raw, rest⟩ = none :=
      if_neg fun hall => by rw [hopening] at hall; cases hall.2.1
    rw [hstep, hplain]
    exact state.plainWith_gap (h.plain block hpending) items
  · have hplain : Place.plain? ⟨lines, raw, rest⟩ = none :=
      if_neg fun hall => by rw [hraw] at hall; cases hall.1
    rw [hstep, hplain]
    exact state.plainWith_gap (h.plain block hpending) items
  · have hplain : Place.plain? ⟨lines, raw, rest⟩ = none :=
      if_neg fun hall => by rw [hraw] at hall; cases hall.1
    rw [hstep, hplain, ← state.plainWith_closed items]
    unfold takeDirective
    split <;> rfl

end Tracks

/-- What a run over further lines comes to. -/
theorem run_from {state : LexState} {lines : List String} (h : state.Tracks lines) (rest : List String) :
    ((rest.map CommentLine.ofRaw).foldl LexState.step state).Tracks (lines ++ rest) ∧
    ((rest.map CommentLine.ofRaw).foldl LexState.step state).directives =
      state.outcome rest ++ (placesFrom lines rest).filterMap Place.yield? ∧
    ((rest.map CommentLine.ofRaw).foldl LexState.step state).plain =
      state.plainWith ((placesFrom lines rest).map Place.plain?) := by
  induction rest generalizing state lines with
  | nil =>
    refine ⟨(List.append_nil lines).symm ▸ h, ?_, ?_⟩
    · unfold outcome
      cases state.pending <;> exact (List.append_nil _).symm
    · unfold plainWith
      cases state.plainClosed <;> cases hplain : state.plain <;>
        simp [hplain, placesFrom, firstRun, leadingRun, List.reduceOption]
  | cons raw rest ih =>
    obtain ⟨htracks, hdirectives, hplain⟩ := ih (h.step raw)
    rw [List.append_assoc, List.singleton_append] at htracks
    refine ⟨htracks, ?_, ?_⟩
    · rw [List.map_cons, List.foldl_cons, hdirectives, h.outcome_step raw rest, List.append_assoc, placesFrom,
        List.filterMap_cons]
      cases Place.yield? ⟨lines, raw, rest⟩ <;> rfl
    · rw [List.map_cons, List.foldl_cons, hplain, h.plainWith_step raw rest, placesFrom, List.map_cons]

end LexState

/-- The plain text of a comment: its first run of lines that hold plain text. -/
def plainTextOf (lines : List String) : Option String :=
  match firstRun ((places lines).map Place.plain?) with
  | [] => none
  | run => some (Text.join "\n" run)

/-- A directive closes a block if its name has the same normal form and its last word is `end`. -/
theorem Directive.closes_iff (closing opening : Directive) :
    closing.closes opening = true ↔
      (∃ normal, Normalizes closing.name.toList normal ∧ Normalizes opening.name.toList normal) ∧
        (Text.words closing.argument).getLast? = some "end" := by
  unfold closes key
  rw [Bool.and_eq_true, beq_iff_eq, beq_iff_eq]
  refine and_congr_left fun _ => ⟨fun hsame => ?_, ?_⟩
  · exact ⟨_, normalName_eq_iff.mp hsame, normalName_eq_iff.mp rfl⟩
  · rintro ⟨normal, hclosing, hopening⟩
    rw [← String.toList_ofList (l := normal), ← normalName_eq_iff] at hclosing hopening
    rw [hclosing, hopening]

/-- Every line of a comment is accounted for. The directives are what the lines yield in their places, in order.
There is a warning exactly if the last directive opens a block. The plain text is the first run of plain lines. A
line has a directive exactly if it is written on it, and the argument of a directive is the trimmed rest of its
line. Lines lose their markers and blanks, bodies their empty lines at the edges, and a block is closed by a name
that differs in case, hyphens and underscores only. -/
theorem lex_accounts_for_lines (lines : List String) (subject : String) :
    (lex lines subject).1.directives = (places lines).filterMap Place.yield? ∧
    (lex lines subject).2 = (openingAfter lines).toList.map
      (fun opening => ⟨subject, .unterminatedBlock opening.name opening.argument⟩) ∧
    (lex lines subject).1.plainText = plainTextOf lines ∧
    (∀ line directive, directiveOn? line = some directive ↔ directive.WrittenOn (stripMarkers line)) ∧
    (∀ raw line, stripMarkers raw = line ↔ Unmarks raw line) ∧
    (∀ body kept, trimEmptyEdges body = kept ↔ Text.Trims (· == "") body kept) ∧
    (∀ argument found, Text.words argument = found ↔ Text.Words argument.toList found) ∧
    ∀ closing opening : Directive, closing.closes opening = true ↔
      (∃ normal, Normalizes closing.name.toList normal ∧ Normalizes opening.name.toList normal) ∧
        (Text.words closing.argument).getLast? = some "end" := by
  have hstart : ({} : LexState).Tracks [] := .of_none rfl rfl
  obtain ⟨htracks, hdirectives, hplain⟩ := LexState.run_from hstart lines
  rw [List.nil_append] at htracks
  refine ⟨hdirectives, ?_, ?_, fun line directive => ?_, fun _ _ => stripMarkers_eq_iff,
    fun _ _ => Text.strip_eq_iff, fun _ _ => Text.words_eq_iff, Directive.closes_iff⟩
  · rw [← htracks.opening]
    unfold lex LexState.finish LexState.run
    cases ((lines.map CommentLine.ofRaw).foldl LexState.step {}).pending <;> rfl
  · have hrun : ((lines.map CommentLine.ofRaw).foldl LexState.step {}).plain =
        firstRun ((places lines).map Place.plain?) := hplain
    unfold lex LexState.finish LexState.run plainTextOf
    dsimp only
    rw [hrun]
    cases firstRun ((places lines).map Place.plain?) <;> rfl
  · rw [directiveOn?_eq]
    exact Directive.ofLine?_eq_some_iff

/-- A comment with plain text, a block with empty lines at its edges that is closed under another spelling of its
name, a directive with blanks around its argument, and a block that is left open. -/
def shopComment : List String :=
  ["/// Pets of a shop.", "/// openapi:Op-Response 200   json  start", "///", "  //!  first ", "", "* second", "//",
    "@openapi:op_RESPONSE end", "/// openapi:Summary   Lists   pets  ", "** openapi:route start"]

/-- What the lines of the comment come to. -/
theorem lex_accounts_for_lines_shop :
    lex shopComment "Pet" =
      (⟨[⟨"Op-Response", "200 json first\n\nsecond"⟩, ⟨"Summary", "Lists   pets"⟩], some "Pets of a shop."⟩,
        [⟨"Pet", .unterminatedBlock "route" "start"⟩]) ∧
    (places shopComment).filterMap Place.yield? =
      [⟨"Op-Response", "200 json first\n\nsecond"⟩, ⟨"Summary", "Lists   pets"⟩] ∧
    openingAfter shopComment = some ⟨"route", "start"⟩ ∧ plainTextOf shopComment = some "Pets of a shop." ∧
    Directive.WrittenOn ⟨"Op-Response", "200   json  start"⟩ "openapi:Op-Response 200   json  start" ∧
    Unmarks "  //!  first " "first" ∧ Text.Trims (· == "") ["", "first", "", "second", ""] ["first", "", "second"] ∧
    Text.Words "200   json  start".toList ["200", "json", "start"] ∧
    ∃ normal, Normalizes "op_RESPONSE".toList normal ∧ Normalizes "Op-Response".toList normal := by
  have hlex : lex shopComment "Pet" =
      (⟨[⟨"Op-Response", "200 json first\n\nsecond"⟩, ⟨"Summary", "Lists   pets"⟩], some "Pets of a shop."⟩,
        [⟨"Pet", .unterminatedBlock "route" "start"⟩]) := by decide +kernel
  obtain ⟨hdirectives, hwarnings, hplain, hwritten, hunmarks, htrims, hwords, hcloses⟩ :=
    lex_accounts_for_lines shopComment "Pet"
  rw [hlex] at hdirectives hwarnings hplain
  refine ⟨hlex, hdirectives.symm, ?_, hplain.symm, ?_, ?_, ?_, ?_, ?_⟩
  · cases hopening : openingAfter shopComment with
    | none =>
      rw [hopening] at hwarnings
      cases hwarnings
    | some opening =>
      rw [hopening] at hwarnings
      obtain ⟨name, argument⟩ := opening
      simpa using hwarnings.symm
  · have hline : stripMarkers "/// openapi:Op-Response 200   json  start" =
        "openapi:Op-Response 200   json  start" := by
      decide +kernel
    rw [← hline]
    exact (hwritten _ _).mp (by decide +kernel)
  · exact (hunmarks _ _).mp (by decide +kernel)
  · exact (htrims _ _).mp (by decide +kernel)
  · exact (hwords _ _).mp (by decide +kernel)
  · exact ((hcloses ⟨"op_RESPONSE", "end"⟩ ⟨"Op-Response", "200   json  start"⟩).mp (by decide +kernel)).1

end Comment

end ApiScribe
