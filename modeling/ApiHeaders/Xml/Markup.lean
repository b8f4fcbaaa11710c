import ApiHeaders.Text.Size
import ApiHeaders.Text.Pieces

/-!
# Markup

A document is cut into pieces: runs of character data and constructs that stand between `<` and a
closing `>`. The characters after `<` say which kind of construct begins, and the kind says which
`>` closes it. Names are not checked here, nor are start and end tags matched.

## Main definitions

* `MarkupKind` is the kind of a construct, `MarkupKind.of?` reads it off, and `MarkupKind.cut`
  finds the end of the construct.
* `Markup.ofContent` interprets what stands between `<` and `>`.
* `Piece.scan` cuts a document into pieces. The first fault ends the list.

## Main statements

* `eq_of_cut` says that a construct, its closing character and the rest make up the input.
-/

namespace ApiHeaders.Xml

/-- Blank characters of markup: space, tab, line feed and carriage return. -/
def isSpace (c : Char) : Bool := c = ' ' || c = '\t' || c = '\n' || c = '\r'

/-- The kinds of constructs that `<` begins. -/
inductive MarkupKind where
  | comment
  | cdata
  | doctype
  | instruction
  | tag
  deriving DecidableEq, Repr

/-- Why the text at a position is not markup. -/
inductive MarkupFault where
  | unknown
  | unclosed (kind : MarkupKind)
  /-- A document type declaration without a name. -/
  | nameless
  /-- An end tag where no element is open. -/
  | unmatched (found : String)
  /-- An end tag that is not the one of the innermost open element. -/
  | mismatched (expected found : String)
  deriving DecidableEq, Repr

def MarkupKind.unclosedMessage : MarkupKind → String
  | comment => "comment not closed: `-->` not found before end of input"
  | cdata => "CDATA not closed: `]]>` not found before end of input"
  | doctype => "DOCTYPE not closed: `>` not found before end of input"
  | instruction =>
    "processing instruction or xml declaration not closed: `?>` not found before end of input"
  | tag => "tag not closed: `>` not found before end of input"

def MarkupFault.message : MarkupFault → String
  | unknown => "syntax error: unknown or missed symbol in markup"
  | unclosed kind => "syntax error: " ++ kind.unclosedMessage
  | nameless =>
    "ill-formed document: `<!DOCTYPE>` declaration does not contain a name of a document type"
  | unmatched found =>
    "ill-formed document: close tag `</" ++ found ++ ">` does not match any open tag"
  | mismatched expected found =>
    "ill-formed document: expected `</" ++ expected ++ ">`, but `</" ++ found ++ ">` was found"

/-- The kind of the construct whose text follows `<`. -/
def MarkupKind.of? : List Char → Option MarkupKind
  | '!' :: '-' :: _ => some .comment
  | '!' :: '[' :: _ => some .cdata
  | '!' :: 'D' :: _ | '!' :: 'd' :: _ => some .doctype
  | '!' :: _ => none
  | '?' :: _ => some .instruction
  | _ => some .tag

/-- Cuts a text at its first closing character. `step` follows the text and gives no state at the
character that closes. -/
def cut (step : σ → Char → Option σ) (s : σ) : List Char → Option (List Char × List Char)
  | [] => none
  | c :: cs =>
    match step s c with
    | none => some ([], cs)
    | some s' => (cut step s' cs).map fun (content, rest) => (c :: content, rest)

theorem eq_of_cut {step : σ → Char → Option σ} {s : σ} {cs content rest : List Char}
    (h : cut step s cs = some (content, rest)) : ∃ c, cs = content ++ c :: rest := by
  induction cs generalizing s content with
  | nil => simp [cut] at h
  | cons c cs ih =>
    unfold cut at h
    split at h
    · simp only [Option.some.injEq, Prod.mk.injEq] at h
      obtain ⟨rfl, rfl⟩ := h
      exact ⟨c, rfl⟩
    · simp only [Option.map_eq_some_iff] at h
      obtain ⟨⟨t, r⟩, ht, heq⟩ := h
      simp only [Prod.mk.injEq] at heq
      obtain ⟨rfl, rfl⟩ := heq
      obtain ⟨d, rfl⟩ := ih ht
      exact ⟨d, rfl⟩

/-- Follows a construct that closes at a `>` once `closes` holds of the characters before it, the
last one first. -/
def closeAfter (closes : List Char → Bool) (before : List Char) (c : Char) : Option (List Char) :=
  if c = '>' && closes before then none else some (c :: before)

/-- Follows a document type declaration, which may hold constructs of its own. -/
def closeBalanced (depth : Nat) (c : Char) : Option Nat :=
  if c = '<' then some (depth + 1)
  else if c = '>' then (if depth = 0 then none else some (depth - 1))
  else some depth

/-- Follows a tag, in which `>` may stand inside quotes. The state is the open quote. -/
def closeUnquoted (quote : Option Char) (c : Char) : Option (Option Char) :=
  match quote with
  | some q => some (if c = q then none else some q)
  | none =>
    if c = '>' then none else if c = '"' || c = '\'' then some (some c) else some none

/-- A comment closes after two dashes that are not those of its start. -/
def closesComment (before : List Char) : Bool :=
  ['-', '-'].isPrefixOf before && 5 ≤ before.length

/-- Cuts a construct, whose text follows `<`, from what comes after it. -/
def MarkupKind.cut (kind : MarkupKind) (cs : List Char) : Option (List Char × List Char) :=
  match kind with
  | comment => Xml.cut (closeAfter closesComment) [] cs
  | cdata => Xml.cut (closeAfter (([']', ']'] : List Char).isPrefixOf ·)) [] cs
  | doctype => Xml.cut closeBalanced 0 cs
  | instruction => Xml.cut (closeAfter (['?'].isPrefixOf ·)) [] cs
  | tag => Xml.cut closeUnquoted none cs

theorem MarkupKind.length_cut {kind : MarkupKind} {cs content rest : List Char}
    (h : kind.cut cs = some (content, rest)) : rest.length < cs.length := by
  obtain ⟨c, rfl⟩ : ∃ c, cs = content ++ c :: rest := by cases kind <;> exact eq_of_cut h
  simp
  omega

/-- A piece of a document. -/
inductive Markup where
  | text (raw : List Char)
  | cdata (raw : List Char)
  /-- A start tag, or, if `empty`, a tag that is start and end in one. -/
  | startTag (content : List Char) (empty : Bool)
  | endTag (name : String)
  /-- A construct that adds nothing to the element tree. -/
  | other
  deriving DecidableEq, Repr

/-- The name of an end tag. Blanks after it do not count, unless there is nothing else. -/
def endTagName (cs : List Char) : String :=
  if cs.all isSpace then .ofList cs else .ofList (cs.reverse.dropWhile isSpace).reverse

/-- Interprets the content of a construct. The position of a fault counts from the `<`. -/
def Markup.ofContent (kind : MarkupKind) (content : List Char) :
    Except (Nat × MarkupFault) Markup :=
  match kind with
  | .comment =>
    if ['!', '-', '-'].isPrefixOf content then .ok .other else .error (0, .unclosed kind)
  | .cdata =>
    match Text.stripStart? "![CDATA[".toList content with
    | some raw => .ok (.cdata (raw.take (raw.length - 2)))
    | none => .error (0, .unclosed kind)
  | .doctype =>
    if (content.take 8).map Char.toLower ≠ "!doctype".toList then .error (0, .unclosed kind)
    else if (content.drop 8).all isSpace then .error (1 + Text.size content, .nameless)
    else .ok .other
  | .instruction =>
    if content = ['?'] then .error (0, .unclosed kind) else .ok .other
  | .tag =>
    match content with
    | '/' :: name => .ok (.endTag (endTagName name))
    | _ =>
      match Text.stripEnd? ['/'] content with
      | some content => .ok (.startTag content true)
      | none => .ok (.startTag content false)

/-- A piece, or what is wrong with it, at its position in the document. -/
structure Piece where
  position : Nat
  markup : Except MarkupFault Markup

/-- Cuts a document into pieces, up to the first fault. -/
def Piece.scan (position : Nat) (cs : List Char) : List Piece :=
  match cs with
  | [] => []
  | c :: cs =>
    if c = '<' then
      match MarkupKind.of? cs with
      | none => [⟨position, .error .unknown⟩]
      | some kind =>
        match _ : kind.cut cs with
        | none => [⟨position, .error (.unclosed kind)⟩]
        | some (content, rest) =>
          match Markup.ofContent kind content with
          | .error (offset, fault) => [⟨position + offset, .error fault⟩]
          | .ok markup => ⟨position, .ok markup⟩ :: scan (position + Text.size content + 2) rest
    else
      let raw := c :: cs.takeWhile (· ≠ '<')
      ⟨position, .ok (.text raw)⟩ :: scan (position + Text.size raw) (cs.dropWhile (· ≠ '<'))
termination_by cs.length
decreasing_by
  · have := MarkupKind.length_cut ‹_›
    simp
    omega
  · have := (List.dropWhile_sublist (· ≠ '<') (l := cs)).length_le
    simp at this ⊢
    omega

end ApiHeaders.Xml
