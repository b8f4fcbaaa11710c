import ApiHeaders.Proofs.Pieces
import ApiHeaders.Text.Blank

/-!
# Reading headers

A header is read line by line, with the macros that are defined so far. Conditionals leave lines
out, and an included file of the same directory is read in the place of the line that includes it.

## Main definitions

* `Directive.of?` is what a line tells the preprocessor.
* `Reader` is the state between two lines, `readLines` reads several lines.
* `readText` and `readFile` read a whole text, and list the places that are reached.
* `Nested` says that a text closes the conditionals that it opens, and no others.
-/

namespace ApiHeaders

/-- What a line tells the preprocessor. -/
inductive Directive where
  | define (name : String)
  | undefine (name : String)
  | ifDefined (name : String)
  | ifNotDefined (name : String)
  | ifHolds (condition : String)
  | elseIf (condition : String)
  | otherwise
  | endIf
  /-- Includes a file by a name between quotes. -/
  | load (file : String)
  deriving DecidableEq, Repr

namespace Directive

/-- Whether a character can be part of a macro's name. -/
def isWordChar (c : Char) : Bool := !Text.isBlank c && c ≠ '('

/-- The first word of a text. -/
def word (cs : List Char) : String := .ofList ((Text.trimStart cs).takeWhile isWordChar)

/-- What stands between the quotes that a text starts with. -/
def quoted? (cs : List Char) : Option String :=
  match Text.trimStart cs with
  | '"' :: cs => (Text.breakAt? '"' cs).map fun (file, _) => .ofList file
  | _ => none

def ofKeyword? (keyword : String) (rest : List Char) : Option Directive :=
  match keyword with
  | "define" => some (.define (word rest))
  | "undef" => some (.undefine (word rest))
  | "ifdef" => some (.ifDefined (word rest))
  | "ifndef" => some (.ifNotDefined (word rest))
  | "if" => some (.ifHolds (.ofList (Text.trim rest)))
  | "elif" => some (.elseIf (.ofList (Text.trim rest)))
  | "else" => some .otherwise
  | "endif" => some .endIf
  | "include" => (quoted? rest).map .load
  | _ => none

/-- The directive that a line is. Files between angle brackets are no business of ours. -/
def of? (line : String) : Option Directive :=
  match Text.trimStart line.toList with
  | '#' :: cs =>
    let cs := Text.trimStart cs
    ofKeyword? (.ofList (cs.takeWhile Char.isAlpha)) (cs.dropWhile Char.isAlpha)
  | _ => none

end Directive

/-- What is done with the lines of a conditional. -/
inductive Branch where
  | taken
  /-- They are left out, and so were all before. -/
  | waiting
  /-- They are left out, and so are all that follow. -/
  | passed
  deriving DecidableEq, Repr

/-- The next branch of a conditional. -/
def Branch.next (holds : Bool) : Branch → Branch
  | taken => passed
  | waiting => if holds then taken else waiting
  | passed => passed

/-- A place in a directory: a line of a file, counted from zero. -/
structure Place where
  file : String
  line : Nat
  deriving DecidableEq, Repr

/-- The state between two lines. -/
structure Reader where
  macros : List String
  /-- The open conditionals, the innermost first. -/
  branches : List Branch
  deriving DecidableEq, Repr

namespace Reader

/-- Whether the next line is reached. -/
def active (r : Reader) : Bool := r.branches.all (· = .taken)

/-- Opens a conditional. One that is left out itself has no branch to be taken. -/
def enter (r : Reader) (holds : Bool) : Reader :=
  { r with
    branches := (if !r.active then .passed else if holds then .taken else .waiting) :: r.branches }

/-- Goes on to the next branch of the innermost conditional. -/
def next (r : Reader) (holds : Bool) : Reader :=
  match r.branches with
  | [] => r
  | b :: bs => { r with branches := b.next holds :: bs }

/-- Closes the innermost conditional. -/
def close (r : Reader) : Reader := { r with branches := r.branches.tail }

end Reader

section Reading

-- `holds` decides the conditions that are no plain tests of a macro, `load` reads a file.
variable (holds : List String → String → Bool)
variable (load : String → List String → List Place × List String)

/-- Follows a directive, and lists the places that are reached in an included file. -/
def Reader.follow (r : Reader) : Directive → List Place × Reader
  | .ifDefined m => ([], r.enter (m ∈ r.macros))
  | .ifNotDefined m => ([], r.enter (m ∉ r.macros))
  | .ifHolds condition => ([], r.enter (holds r.macros condition))
  | .elseIf condition => ([], r.next (holds r.macros condition))
  | .otherwise => ([], r.next true)
  | .endIf => ([], r.close)
  | .define m => ([], if r.active then { r with macros := m :: r.macros } else r)
  | .undefine m => ([], if r.active then { r with macros := r.macros.filter (· ≠ m) } else r)
  | .load file =>
    if r.active then ((load file r.macros).1, { r with macros := (load file r.macros).2 })
    else ([], r)

def Reader.step (r : Reader) (line : String) : List Place × Reader :=
  match Directive.of? line with
  | some d => r.follow holds load d
  | none => ([], r)

/-- Reads lines in order and lists the places that are reached. -/
def readLines : List (Place × String) → Reader → List Place × Reader
  | [], r => ([], r)
  | (place, line) :: lines, r =>
    let first := r.step holds load line
    let rest := readLines lines first.2
    ((if r.active then [place] else []) ++ first.1 ++ rest.1, rest.2)

/-- Reads a whole text: the places that are reached, and the macros afterwards. -/
def readText (lines : List (Place × String)) (macros : List String) : List Place × List String :=
  let (reached, r) := readLines holds load lines ⟨macros, []⟩
  (reached, r.macros)

end Reading

/-- The lines of a file from number `n` on, with their places. -/
def numbered (file : String) (n : Nat) : List String → List (Place × String)
  | [] => []
  | line :: lines => (⟨file, n⟩, line) :: numbered file (n + 1) lines

/-- Reads a file of a directory with the files that it includes. Files that are not there and those
that are included more than `depth` deep are left out. -/
def readFile (holds : List String → String → Bool) (directory : String → Option String) :
    Nat → String → List String → List Place × List String
  | 0, _, macros => ([], macros)
  | depth + 1, file, macros =>
    match directory file with
    | none => ([], macros)
    | some text =>
      readText holds (readFile holds directory depth) (numbered file 0 (Text.pieces '\n' text))
        macros

/-- Whether a directive is part of a conditional. -/
def Directive.isConditional : Directive → Bool
  | ifDefined _ | ifNotDefined _ | ifHolds _ | elseIf _ | otherwise | endIf => true
  | define _ | undefine _ | load _ => false

/-- Whether a line is a directive of a conditional. -/
def isConditional (line : String) : Bool := (Directive.of? line).any (·.isConditional)

/-- How many conditionals are open after a line, unless it belongs to a conditional that was open
before. -/
def Directive.depthAfter (depth : Nat) : Option Directive → Option Nat
  | some (.ifDefined _) | some (.ifNotDefined _) | some (.ifHolds _) => some (depth + 1)
  | some (.elseIf _) | some .otherwise => if depth = 0 then none else some depth
  | some .endIf => if depth = 0 then none else some (depth - 1)
  | _ => some depth

/-- How many conditionals are open after some lines, if `depth` were before and no line belongs to
one outside of these. -/
def depthAfter (depth : Nat) : List String → Option Nat
  | [] => some depth
  | line :: lines =>
    (Directive.depthAfter depth (Directive.of? line)).bind (depthAfter · lines)

/-- Whether a text closes the conditionals that it opens, and no others. -/
def Nested (lines : List String) : Prop := depthAfter 0 lines = some 0

instance (lines : List String) : Decidable (Nested lines) :=
  inferInstanceAs (Decidable (depthAfter 0 lines = some 0))

/-! ### Lines with directives -/

namespace Directive

/-- Whether a text is a single word. -/
def isWord (s : String) : Bool := s ≠ "" && s.toList.all isWordChar

theorem break_not_mem {s : String} (h : isWord s) : '\n' ∉ s.toList := by
  intro hmem
  simp only [isWord, Bool.and_eq_true, List.all_eq_true] at h
  have hchar := h.2 '\n' hmem
  exact absurd hchar (by decide)

theorem word_append {s : String} (h : isWord s) (cs : List Char) :
    word (s.toList ++ cs) = s ++ .ofList (cs.takeWhile isWordChar) := by
  simp only [isWord, Bool.and_eq_true, decide_eq_true_eq, List.all_eq_true] at h
  obtain ⟨hne, hall⟩ := h
  have htrim : Text.trimStart (s.toList ++ cs) = s.toList ++ cs := by
    cases hs : s.toList with
    | nil => exact absurd (String.toList_eq_nil_iff.1 hs) hne
    | cons c rest =>
      have hc : Text.isBlank c = false := by
        have := hall c (by simp [hs])
        simp only [isWordChar, Bool.and_eq_true, Bool.not_eq_true'] at this
        exact this.1
      simp [Text.trimStart, hc]
  rw [word, htrim, List.takeWhile_append_of_pos hall, String.ofList_append, String.ofList_toList]

theorem word_toList {s : String} (h : isWord s) : word s.toList = s := by
  have hword := word_append h []
  rwa [List.append_nil, List.takeWhile_nil, String.ofList_nil, String.append_empty] at hword

theorem of?_ifndef_text (s : String) :
    of? ("#ifndef " ++ s) = some (.ifNotDefined (word s.toList)) := by
  rw [of?, String.toList_append]
  rfl

theorem of?_ifndef {s : String} (h : isWord s) :
    of? ("#ifndef " ++ s) = some (.ifNotDefined s) := by
  rw [of?_ifndef_text, word_toList h]

theorem of?_define_text (opening : String)
    (hopening : opening ∈ ["#define ", " #define ", "  #define "]) (s : String) :
    of? (opening ++ s) = some (.define (word s.toList)) := by
  rw [of?, String.toList_append]
  simp only [List.mem_cons, List.not_mem_nil, or_false] at hopening
  rcases hopening with rfl | rfl | rfl <;> rfl

/-- The name that is defined may go on after a word. -/
theorem of?_define_append {s : String} (h : isWord s) (opening : String)
    (hopening : opening ∈ ["#define ", " #define ", "  #define "]) (name rest : String)
    (hrest : rest.toList.takeWhile isWordChar = name.toList) :
    of? (opening ++ s ++ rest) = some (.define (s ++ name)) := by
  rw [String.append_assoc, of?_define_text opening hopening, String.toList_append, word_append h,
    hrest, String.ofList_toList]

theorem of?_define {s : String} (h : isWord s) : of? ("#define " ++ s) = some (.define s) := by
  have hline := of?_define_append h _ List.mem_cons_self "" "" rfl
  rwa [String.append_empty, String.append_empty] at hline

theorem of?_define_one {s : String} (h : isWord s) :
    of? ("#define " ++ s ++ " 1") = some (.define s) := by
  have hline := of?_define_append h _ List.mem_cons_self "" " 1" rfl
  rwa [String.append_empty] at hline

theorem of?_undef_text (s : String) : of? ("#undef " ++ s) = some (.undefine (word s.toList)) := by
  rw [of?, String.toList_append]
  rfl

theorem of?_undef {s : String} (h : isWord s) : of? ("#undef " ++ s) = some (.undefine s) := by
  rw [of?_undef_text, word_toList h]

theorem of?_if (condition : String) : ∃ c, of? ("#if " ++ condition) = some (.ifHolds c) := by
  refine ⟨.ofList (Text.trim condition.toList), ?_⟩
  rw [of?, String.toList_append]
  rfl

theorem isWord_append {s : String} (h : isWord s) (rest : String)
    (hrest : rest.toList.all isWordChar) : isWord (s ++ rest) := by
  simp only [isWord, Bool.and_eq_true, decide_eq_true_eq] at h ⊢
  refine ⟨fun hempty => h.1 ?_, ?_⟩
  · have hnil := congrArg String.toList hempty
    rw [String.toList_append] at hnil
    exact String.toList_eq_nil_iff.1 (List.append_eq_nil_iff.1 hnil).1
  · rw [String.toList_append, List.all_append, h.2, hrest]
    rfl

theorem of?_endif (s : String) : of? ("#endif /* " ++ s ++ " */") = some .endIf := by
  rw [of?, String.append_assoc, String.toList_append]
  rfl

theorem of?_include_text (file : String) :
    of? ("#include \"" ++ file ++ "\"") =
      ((Text.breakAt? '"' (file.toList ++ ['"'])).map fun (f, _) => String.ofList f).map .load := by
  rw [of?, String.append_assoc, String.toList_append, String.toList_append]
  rfl

theorem of?_include {file : String} (h : '"' ∉ file.toList) :
    of? ("#include \"" ++ file ++ "\"") = some (.load file) := by
  simp [of?_include_text, Text.breakAt?_append h]

end Directive

/-! ### Places -/

@[simp] theorem numbered_append (file : String) (n : Nat) (xs ys : List String) :
    numbered file n (xs ++ ys) = numbered file n xs ++ numbered file (n + xs.length) ys := by
  induction xs generalizing n with
  | nil => rfl
  | cons x xs ih =>
    have hn : n + (x :: xs).length = n + 1 + xs.length := by
      rw [List.length_cons]
      omega
    rw [List.cons_append, numbered, ih, hn]
    rfl

@[simp] theorem map_snd_numbered (file : String) (n : Nat) (lines : List String) :
    (numbered file n lines).map Prod.snd = lines := by
  induction lines generalizing n with
  | nil => rfl
  | cons line lines ih => rw [numbered, List.map_cons, ih]

theorem place_of_mem_numbered {file : String} {n : Nat} {lines : List String}
    {x : Place × String} (h : x ∈ numbered file n lines) :
    x.1.file = file ∧ n ≤ x.1.line ∧ x.1.line < n + lines.length := by
  induction lines generalizing n with
  | nil => cases h
  | cons line lines ih =>
    rw [List.length_cons]
    rcases List.mem_cons.1 h with rfl | h
    · exact ⟨rfl, Nat.le_refl n, Nat.lt_add_of_pos_right (Nat.succ_pos _)⟩
    · obtain ⟨hfile, hn, hlt⟩ := ih h
      exact ⟨hfile, by omega, by omega⟩

theorem mem_numbered {file : String} {n i : Nat} {lines : List String} (h : i < lines.length) :
    ∃ line, (⟨file, n + i⟩, line) ∈ numbered file n lines := by
  induction lines generalizing n i with
  | nil => cases h
  | cons line lines ih =>
    cases i with
    | zero => exact ⟨line, List.mem_cons_self⟩
    | succ i =>
      obtain ⟨l, hl⟩ := ih (n := n + 1) (Nat.lt_of_succ_lt_succ h)
      refine ⟨l, List.mem_cons_of_mem _ ?_⟩
      rwa [Nat.add_assoc, Nat.add_comm 1 i] at hl

end ApiHeaders
