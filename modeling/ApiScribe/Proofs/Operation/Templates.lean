import ApiScribe.Proofs.Operation.Joining
import ApiScribe.Proofs.Operation.Owners

/-!
# The parameters of a joined path

A path template is made of text and of groups, which are names in braces. Scanning a text for groups goes over parts
that leave no group open, and what joining cuts off at the ends of base and route holds no brace. So the parameters
of a joined path are those of the base and then those of the route, and an operation has the parameters of the base
path of its owner, whatever its route is.
-/

namespace ApiScribe.Operation

open Text

/-- Text without braces. -/
structure Plain where
  chars : List Char
  braceFree : ∀ c ∈ chars, c ≠ '\x7b' ∧ c ≠ '\x7d'

/-- A piece of a path template. -/
inductive Piece where
  | text (plain : Plain)
  | group (name : Plain)

namespace Piece

/-- A piece as it is written: a group stands in braces. -/
def chars : Piece → List Char
  | text plain => plain.chars
  | group name => '\x7b' :: (name.chars ++ ['\x7d'])

/-- A template as it is written. -/
def write (template : List Piece) : String := String.ofList (template.flatMap chars)

/-- The name that a piece gives to a parameter: that of a group, trimmed, unless it is blank. -/
def name? : Piece → Option String
  | text _ => none
  | group name =>
    let trimmed := trim (String.ofList name.chars)
    if trimmed = "" then none else some trimmed

/-- The names of the parameters of a template, in order. -/
def names (template : List Piece) : List String := template.filterMap name?

end Piece

/-- The group that is open at the end of a text, last character first. -/
def openGroup : List Char → Option (List Char) → Option (List Char)
  | [], inside => inside
  | c :: cs, none => if c = '\x7b' then openGroup cs (some []) else openGroup cs none
  | c :: cs, some inside => if c = '\x7d' then openGroup cs none else openGroup cs (some (c :: inside))

/-- The groups of a text are those of its parts, the second read with what the first leaves open. -/
theorem groups_append (front back : List Char) (inside : Option (List Char)) :
    groups (front ++ back) inside = groups front inside ++ groups back (openGroup front inside) := by
  fun_induction groups front inside <;> simp_all [groups, openGroup]

/-- What a text leaves open is what its second part leaves open after the first. -/
theorem openGroup_append (front back : List Char) (inside : Option (List Char)) :
    openGroup (front ++ back) inside = openGroup back (openGroup front inside) := by
  fun_induction openGroup front inside <;> simp_all [openGroup]

/-- Text without opening braces opens no group. -/
theorem scan_of_no_opening {cs : List Char} (h : ∀ c ∈ cs, c ≠ '\x7b') :
    groups cs none = [] ∧ openGroup cs none = none := by
  induction cs with
  | nil => exact ⟨rfl, rfl⟩
  | cons c cs ih =>
    rw [List.forall_mem_cons] at h
    rw [groups, openGroup, if_neg h.1, if_neg h.1]
    exact ih h.2

/-- Text without closing braces goes into the open group. -/
theorem scan_of_no_closing {cs : List Char} (h : ∀ c ∈ cs, c ≠ '\x7d') (inside : List Char) :
    groups cs (some inside) = [] ∧ openGroup cs (some inside) = some (cs.reverse ++ inside) := by
  induction cs generalizing inside with
  | nil => exact ⟨rfl, rfl⟩
  | cons c cs ih =>
    rw [List.forall_mem_cons] at h
    rw [groups, openGroup, if_neg h.1, if_neg h.1, List.reverse_cons, List.append_assoc]
    exact ih h.2 (c :: inside)

/-- Characters that do not open a group can be dropped at the front. -/
theorem scan_dropWhile {p : Char → Bool} (hp : p '\x7b' = false) (cs : List Char) :
    groups (cs.dropWhile p) none = groups cs none ∧ openGroup (cs.dropWhile p) none = openGroup cs none := by
  have hcut : ∀ c ∈ cs.takeWhile p, c ≠ '\x7b' := by
    rintro c hc rfl
    exact absurd (List.mem_takeWhile_imp hc) (by simp [hp])
  obtain ⟨hgroups, hopen⟩ := scan_of_no_opening hcut
  conv => enter [1, 2]; rw [← List.takeWhile_append_dropWhile (p := p) (l := cs), groups_append, hgroups, hopen]
  conv => enter [2, 2]; rw [← List.takeWhile_append_dropWhile (p := p) (l := cs), openGroup_append, hopen]
  exact ⟨rfl, rfl⟩

/-- Scanning a text finds these groups and leaves none open. -/
structure Scans (cs : List Char) (found : List (List Char)) : Prop where
  groups : groups cs none = found
  closed : openGroup cs none = none

namespace Scans

/-- Parts that close what they open are scanned one after another. -/
theorem append {front back : List Char} {found more : List (List Char)} (h : Scans front found)
    (h' : Scans back more) : Scans (front ++ back) (found ++ more) := by
  constructor
  · rw [groups_append, h.groups, h.closed, h'.groups]
  · rw [openGroup_append, h.closed, h'.closed]

/-- A text without opening braces has no groups. -/
theorem text {cs : List Char} (h : ∀ c ∈ cs, c ≠ '\x7b') : Scans cs [] :=
  ⟨(scan_of_no_opening h).1, (scan_of_no_opening h).2⟩

/-- A name in braces is a group. -/
theorem group {name : List Char} (h : ∀ c ∈ name, c ≠ '\x7d') :
    Scans ('\x7b' :: (name ++ ['\x7d'])) [strip isBlank name] := by
  have hname := scan_of_no_closing h []
  rw [List.append_nil] at hname
  constructor
  · simp [Operation.groups, groups_append, hname]
  · simp [openGroup, openGroup_append, hname]

variable {cs : List Char} {found : List (List Char)} {p : Char → Bool}

/-- Dropping other characters at the front keeps the groups. -/
theorem dropWhile (h : Scans cs found) (hp : p '\x7b' = false) : Scans (cs.dropWhile p) found :=
  ⟨(scan_dropWhile hp cs).1.trans h.groups, (scan_dropWhile hp cs).2.trans h.closed⟩

/-- Characters that are no braces can be dropped at the end, since no group is open there. -/
theorem stripEnd (h : Scans cs found) (hopening : p '\x7b' = false) (hclosing : p '\x7d' = false) :
    Scans (stripEnd p cs) found := by
  obtain ⟨cut, hcut, hall⟩ := exists_stripEnd_append p cs
  have hplain : Scans cut [] := .text <| by
    rintro c hc rfl
    exact absurd (hall _ hc) (by simp [hopening])
  obtain ⟨hgroups, hclosed⟩ := h
  rw [← hcut, openGroup_append] at hclosed
  rw [← hcut, groups_append] at hgroups
  cases hopen : openGroup (Text.stripEnd p cs) none with
  | none => exact ⟨by rwa [hopen, hplain.groups, List.append_nil] at hgroups, hopen⟩
  | some inside =>
    -- The group would stay open, since what is cut off does not close it.
    have hunclosed : ∀ c ∈ cut, c ≠ '\x7d' := by
      rintro c hc rfl
      exact absurd (hall _ hc) (by simp [hclosing])
    rw [hopen, (scan_of_no_closing hunclosed inside).2] at hclosed
    cases hclosed

end Scans

/-- The names that groups give to parameters: those that are not empty. -/
def namesOf (found : List (List Char)) : List String :=
  (found.filter fun name => !name.isEmpty).map String.ofList

/-- Names are taken from one list after the other. -/
theorem namesOf_append (found more : List (List Char)) :
    namesOf (found ++ more) = namesOf found ++ namesOf more := by
  rw [namesOf, List.filter_append, List.map_append]
  rfl

/-- The parameters of a path are the names of its groups, each once. -/
theorem templateParameters_eq (path : String) :
    templateParameters path = (namesOf (groups path.toList none)).eraseDups :=
  map_firstOccurrences (fun _ _ h => String.ofList_injective h) _

/-- A template is scanned piece by piece. -/
theorem exists_scans_write (template : List Piece) :
    ∃ found, Scans (Piece.write template).toList found ∧ namesOf found = Piece.names template := by
  rw [Piece.write, String.toList_ofList]
  induction template with
  | nil => exact ⟨[], .text (by simp), rfl⟩
  | cons piece rest ih =>
    obtain ⟨found, hfound, hnames⟩ := ih
    rw [List.flatMap_cons, Piece.names, List.filterMap_cons, ← Piece.names, ← hnames]
    cases piece with
    | text plain =>
      exact ⟨found, (Scans.text fun c hc => (plain.braceFree c hc).1).append hfound, rfl⟩
    | group name =>
      refine ⟨[strip isBlank name.chars] ++ found,
        (Scans.group fun c hc => (name.braceFree c hc).2).append hfound, ?_⟩
      by_cases hblank : strip isBlank name.chars = [] <;> simp [namesOf, Piece.name?, trim, hblank]

/-- What is put in front of a route opens no group. -/
theorem groups_rooted (cs : List Char) : groups (rooted cs) none = groups cs none := by
  unfold rooted
  split
  · rfl
  · rw [groups, if_neg (by decide)]

/-- The slash in front of a part is in no group. -/
theorem groups_hung (part : String) : groups (hung part).toList none = groups part.toList none := by
  unfold hung
  split
  · next h => rw [h]
  · rw [String.toList_append]
    exact if_neg (by decide)

/-- Scanning a joined path finds the groups of the base, and then those of the trimmed route. -/
theorem groups_joinPath {base : String} {found : List (List Char)} (h : Scans base.toList found) (route : String) :
    groups (joinPath (some base) route).toList none = found ++ groups (strip isBlank route.toList) none := by
  have hpart : Scans (basePart base).toList found := by
    rw [toList_basePart]
    exact ((h.dropWhile (by decide)).stripEnd (by decide) (by decide)).stripEnd (by decide) (by decide)
  by_cases hbase : basePart base = ""
  · rw [hbase] at hpart
    rw [joinPath_rooted (by simpa using hbase), groups_rooted, ← hpart.groups]
    rfl
  · rw [joinPath_below hbase, String.toList_append, groups_append, hpart.groups, hpart.closed, groups_hung,
      toList_routePart, (scan_dropWhile (by decide) _).1]

/-- The parameters of a joined path are those of the base and then those of the route, each at its first occurrence.
Every operation has the parameters of the base path of its owner, as required parameters in the path. -/
theorem templateParameters_joinPath (base route : List Piece) :
    templateParameters (joinPath (some (Piece.write base)) (Piece.write route)) =
      (Piece.names base ++ Piece.names route).eraseDups ∧
    ∀ candidate assembler bound,
      ((askOwner candidate).run assembler).1.basePath = some (Piece.write base) →
      ((assemble candidate).run assembler).1 = some bound →
      ∀ name ∈ Piece.names base, ∃ parameter ∈ bound.operation.parameters,
        parameter.name = name ∧ parameter.location = .path ∧ parameter.required = true := by
  obtain ⟨found, hfound, hnames⟩ := exists_scans_write base
  constructor
  · obtain ⟨more, hmore, hroute⟩ := exists_scans_write route
    have hstrip : Scans (strip isBlank (Piece.write route).toList) more :=
      (hmore.dropWhile (by decide)).stripEnd (by decide) (by decide)
    rw [templateParameters_eq, groups_joinPath hfound, hstrip.groups, namesOf_append, hnames, hroute]
  · intro candidate assembler bound howner hbound name hname
    obtain ⟨hformed, -⟩ := (assemble_accounts candidate assembler).2.2 bound hbound
    have hpath := ((assemble_continues candidate assembler).2 bound hbound).path
    rw [howner] at hpath
    obtain ⟨written, -, hwritten⟩ := Option.map_eq_some_iff.mp hpath.symm
    have htemplate : name ∈ templateParameters bound.path := by
      rw [← hwritten, templateParameters_eq, List.mem_eraseDups, groups_joinPath hfound, namesOf_append, hnames]
      exact List.mem_append_left _ hname
    obtain ⟨parameter, hparameter, hidentity⟩ := List.mem_map.mp (hformed.parameters.template name htemplate)
    obtain ⟨hsame, hlocation⟩ := Prod.mk.inj hidentity
    exact ⟨parameter, hparameter, hsame, hlocation, hformed.parameters.required parameter hparameter hlocation⟩

/-- A method of a trait whose base path holds the parameter `shop`. -/
def listItems : Candidate where
  subject := "Shop::items"
  module := .root
  docs := ["openapi:operation GET /items/\x7bid\x7d items"]
  owner := some ⟨"Shop", ["openapi:path /shops/\x7b shop \x7d/"]⟩
  source := "src/lib.rs"

/-- The pieces of `/shops/{ shop }/`. -/
def shopBase : List Piece :=
  [.text ⟨"/shops/".toList, by simp⟩, .group ⟨" shop ".toList, by simp⟩, .text ⟨"/".toList, by simp⟩]

/-- The pieces of `/items/{id}/{shop}`. -/
def itemRoute : List Piece :=
  [.text ⟨"/items/".toList, by simp⟩, .group ⟨"id".toList, by simp⟩, .text ⟨"/".toList, by simp⟩,
    .group ⟨"shop".toList, by simp⟩]

/-- The path has the parameters of both, and the operation of the method that of the base path. -/
theorem templateParameters_joinPath_shop :
    let assembler : Assembler := { registry := { resolver := { table := {} } } }
    Piece.names shopBase = ["shop"] ∧ Piece.names itemRoute = ["id", "shop"] ∧
    templateParameters (joinPath (some (Piece.write shopBase)) (Piece.write itemRoute)) = ["shop", "id"] ∧
    ((askOwner listItems).run assembler).1.basePath = some (Piece.write shopBase) ∧
    ∃ bound, ((assemble listItems).run assembler).1 = some bound ∧ ∃ parameter ∈ bound.operation.parameters,
      parameter.name = "shop" ∧ parameter.location = .path ∧ parameter.required = true := by
  intro assembler
  have hbase : Piece.names shopBase = ["shop"] := by decide +kernel
  have hroute : Piece.names itemRoute = ["id", "shop"] := by decide +kernel
  have howner : ((askOwner listItems).run assembler).1.basePath = some (Piece.write shopBase) := by decide +kernel
  have hsome : ((assemble listItems).run assembler).1.isSome = true := by decide +kernel
  obtain ⟨bound, hbound⟩ := Option.isSome_iff_exists.mp hsome
  obtain ⟨hjoined, hreaches⟩ := templateParameters_joinPath shopBase itemRoute
  refine ⟨hbase, hroute, ?_, howner, bound, hbound, hreaches listItems assembler bound howner hbound "shop" ?_⟩
  · rw [hjoined, hbase, hroute]
    decide
  · rw [hbase]
    exact List.mem_singleton_self _

end ApiScribe.Operation
