import ApiHeaders.Xml.Markup
import ApiHeaders.Xml.Reference

/-!
# Attributes

The content of a start tag is a name and attributes `key="value"` or `key='value'`. Attributes are
read from left to right, and the first problem ends the reading. Positions count bytes from the
start of the tag's content.

## Main definitions

* `Attribute` is a key with its value, references resolved.
* `Attribute.readAll` reads the attributes after the name.
* `AttributeFault` says what is wrong with the form of an attribute.
-/

namespace ApiHeaders.Xml

/-- An attribute of an element. -/
structure Attribute where
  key : String
  value : String
  deriving DecidableEq, Repr, Inhabited

/-- What is wrong with the form of an attribute, and where. -/
inductive AttributeFault where
  /-- Something else than `=` follows the key. -/
  | noEquals (position : Nat)
  /-- The key at `position` was given before at `previous`. -/
  | duplicate (position previous : Nat)
  /-- Nothing follows the `=`. -/
  | noValue (position : Nat)
  /-- The value is not in quotes. -/
  | unquoted (position : Nat)
  /-- The value's quote is not closed. -/
  | unclosedQuote (position : Nat) (quote : Char)
  deriving DecidableEq, Repr

def AttributeFault.message : AttributeFault → String
  | noEquals position =>
    located position ++ "attribute key must be directly followed by `=` or space"
  | duplicate position previous =>
    located position ++ "duplicated attribute, previous declaration at position "
      ++ toString previous
  | noValue position => located position ++ "`=` must be followed by an attribute value"
  | unquoted position => located position ++ "attribute value must be enclosed in `\"` or `'`"
  | unclosedQuote position quote =>
    located position ++ "missing closing quote `" ++ .singleton quote ++ "` in attribute value"
where
  located (position : Nat) : String := "position " ++ toString position ++ ": "

/-- Why the attributes of a tag cannot be read. -/
inductive AttributeError where
  | form (fault : AttributeFault)
  | value (fault : ReferenceFault)
  deriving DecidableEq, Repr

/-- The form of one attribute: its key and value as they are written. -/
structure RawAttribute where
  key : List Char
  value : List Char

/-- Reads the `=` that follows a key. Gives the position after it and the rest. -/
def readEquals (position : Nat) (cs : List Char) : Except AttributeFault (Nat × List Char) :=
  let blank := cs.takeWhile isSpace
  match cs.dropWhile isSpace with
  | '=' :: rest => .ok (position + Text.size blank + 1, rest)
  | _ => .error (.noEquals (position + Text.size blank))

/-- Reads a value in quotes, as it is written. Gives the position after it and the rest. -/
def readQuoted (position : Nat) (cs : List Char) :
    Except AttributeFault (List Char × Nat × List Char) :=
  let start := position + Text.size (cs.takeWhile isSpace)
  match cs.dropWhile isSpace with
  | [] => .error (.noValue start)
  | quote :: cs =>
    if quote = '"' || quote = '\'' then
      match Text.breakAt? quote cs with
      | some (value, rest) => .ok (value, start + 1 + Text.size value + 1, rest)
      | none => .error (.unclosedQuote (start + 1 + Text.size cs) quote)
    else .error (.unquoted start)

theorem length_readEquals {position next : Nat} {cs rest : List Char}
    (h : readEquals position cs = .ok (next, rest)) : rest.length < cs.length := by
  unfold readEquals at h
  have hl := (List.dropWhile_sublist isSpace (l := cs)).length_le
  split at h
  · next heq =>
    simp only [Except.ok.injEq, Prod.mk.injEq] at h
    obtain ⟨-, rfl⟩ := h
    rw [heq, List.length_cons] at hl
    omega
  · simp at h

theorem length_readQuoted {position next : Nat} {cs value rest : List Char}
    (h : readQuoted position cs = .ok (value, next, rest)) : rest.length < cs.length := by
  unfold readQuoted at h
  have hl := (List.dropWhile_sublist isSpace (l := cs)).length_le
  split at h
  · simp at h
  · next quote cs' heq =>
    rw [heq] at hl
    split at h
    · split at h
      · next v r hb =>
        simp only [Except.ok.injEq, Prod.mk.injEq] at h
        obtain ⟨-, -, rfl⟩ := h
        have := congrArg List.length (Text.eq_of_breakAt? hb).1
        simp at this hl
        omega
      · simp at h
    · simp at h

/-- Whether a character continues a key. -/
def isKeyChar (c : Char) : Bool := !isSpace c && c ≠ '='

/-- Reads one attribute whose key starts with `c` at byte `start`. `seen` holds the keys read
before with their positions. Gives the position after the attribute and the rest. -/
def RawAttribute.read (seen : List (List Char × Nat)) (start : Nat) (c : Char) (cs : List Char) :
    Except AttributeFault (RawAttribute × Nat × List Char) :=
  let key := c :: cs.takeWhile isKeyChar
  match readEquals (start + Text.size key) (cs.dropWhile isKeyChar) with
  | .error fault => .error fault
  | .ok (afterEquals, rest) =>
    match seen.lookup key with
    | some previous => .error (.duplicate start previous)
    | none =>
      match readQuoted afterEquals rest with
      | .error fault => .error fault
      | .ok (value, after, rest) => .ok (⟨key, value⟩, after, rest)

theorem RawAttribute.length_read {seen : List (List Char × Nat)} {start after : Nat} {c : Char}
    {cs rest : List Char} {raw : RawAttribute} (h : read seen start c cs = .ok (raw, after, rest)) :
    rest.length < cs.length := by
  unfold read at h
  simp only at h
  split at h
  · simp at h
  · next heq =>
    have h₁ := length_readEquals heq
    have h₂ := (List.dropWhile_sublist isKeyChar (l := cs)).length_le
    split at h
    · simp at h
    · split at h
      · simp at h
      · next hq =>
        have h₃ := length_readQuoted hq
        simp only [Except.ok.injEq, Prod.mk.injEq] at h
        obtain ⟨-, -, rfl⟩ := h
        omega

/-- Reads the attributes in what is left of a tag. `seen` holds the keys read so far with their
positions. -/
def Attribute.readFrom (seen : List (List Char × Nat)) (position : Nat) (cs : List Char) :
    Except AttributeError (List Attribute) :=
  let start := position + Text.size (cs.takeWhile isSpace)
  match _ : cs.dropWhile isSpace with
  | [] => .ok []
  | c :: more =>
    match _ : RawAttribute.read seen start c more with
    | .error fault => .error (.form fault)
    | .ok (raw, after, rest) =>
      match resolve raw.value with
      | .error fault => .error (.value fault)
      | .ok value => do
        let later ← readFrom ((raw.key, start) :: seen) after rest
        return ⟨.ofList raw.key, .ofList value⟩ :: later
termination_by cs.length
decreasing_by
  have h₀ := (List.dropWhile_sublist isSpace (l := cs)).length_le
  have h₁ := RawAttribute.length_read ‹_›
  rw [‹cs.dropWhile isSpace = _›, List.length_cons] at h₀
  omega

/-- The name at the start of a tag's content, and the attributes that follow it. -/
def Attribute.readAll (content : List Char) : Except AttributeError (String × List Attribute) := do
  let name := content.takeWhile (!isSpace ·)
  let attributes ← readFrom [] (Text.size name) (content.dropWhile (!isSpace ·))
  return (.ofList name, attributes)

end ApiHeaders.Xml
