import ApiHeaders.Text.Digit
import ApiHeaders.Text.Size
import ApiHeaders.Text.Pieces

/-!
# References in character data

`&name;` stands for one of five predefined characters, `&#123;` and `&#x7b;` for the character
with that code point. A run of character data is read piece by piece; positions count bytes from
the start of the piece.

## Main definitions

* `predefined?` lists the five predefined names.
* `resolve` replaces the references of a piece by what they stand for.
* `ReferenceFault` says why a piece cannot be read.
-/

namespace ApiHeaders.Xml

/-- Why the number of a character reference is not a character. -/
inductive NumberFault where
  | sign
  | empty
  | digit
  | tooLarge
  | null
  | notCharacter (code : Nat)
  deriving DecidableEq, Repr

/-- Why a piece of character data cannot be read. -/
inductive ReferenceFault where
  /-- No `;` follows the `&` at `start`; the piece ends at `stop`. -/
  | unterminated (start stop : Nat)
  /-- The name between `start` and `stop` is not a predefined one. -/
  | unknown (start stop : Nat) (name : String)
  | number (fault : NumberFault)
  deriving DecidableEq, Repr

def NumberFault.message : NumberFault → String
  | sign => "unexpected number sign"
  | empty => "cannot parse integer from empty string"
  | digit => "invalid digit found in string"
  | tooLarge => "number too large to fit in target type"
  | null => "0x0 character is not permitted in XML"
  | notCharacter code => "`" ++ toString code ++ "` is not a valid codepoint"

def ReferenceFault.message : ReferenceFault → String
  | unterminated start stop =>
    "Error while escaping character at range " ++ toString start ++ ".." ++ toString stop
      ++ ": Cannot find ';' after '&'"
  | unknown start stop name =>
    "at " ++ toString start ++ ".." ++ toString stop ++ ": unrecognized entity `" ++ name ++ "`"
  | number fault => "invalid character reference: " ++ fault.message

/-- Reads digits into a number of at most 32 bits, from left to right. -/
def readDigits (base : Nat) (read : Nat) : List Char → Except NumberFault Nat
  | [] => .ok read
  | c :: cs =>
    match Text.digit? base c with
    | none => .error .digit
    | some d =>
      if read * base + d < 0x100000000 then readDigits base (read * base + d) cs
      else .error .tooLarge

/-- Reads an unsigned number. -/
def readNumber (base : Nat) : List Char → Except NumberFault Nat
  | [] => .error .empty
  | '+' :: _ | '-' :: _ => .error .sign
  | cs => readDigits base 0 cs

/-- The character of a number that follows `&#`. -/
def numbered (cs : List Char) : Except NumberFault Char := do
  let code ← match cs with
    | 'x' :: hex => readNumber 16 hex
    | decimal => readNumber 10 decimal
  if code = 0 then throw .null
  if code.isValidChar then return Char.ofNat code
  throw (.notCharacter code)

/-- The predefined names. -/
def predefined? (name : List Char) : Option Char :=
  [("lt", '<'), ("gt", '>'), ("amp", '&'), ("apos", '\''), ("quot", '"')].lookup (.ofList name)

/-- The character of a reference whose text starts at byte `start`. -/
def referenced (start : Nat) (name : List Char) : Except ReferenceFault Char :=
  match name with
  | '#' :: number => (numbered number).mapError .number
  | _ =>
    match predefined? name with
    | some c => .ok c
    | none => .error (.unknown start (start + Text.size name) (.ofList name))

/-- The text up to the next `;`, unless another `&` comes before it. -/
def cutReference : List Char → Option (List Char × List Char)
  | [] | '&' :: _ => none
  | ';' :: cs => some ([], cs)
  | c :: cs => (cutReference cs).map fun (name, rest) => (c :: name, rest)

theorem eq_of_cutReference {cs name rest : List Char} (h : cutReference cs = some (name, rest)) :
    cs = name ++ ';' :: rest := by
  induction cs generalizing name with
  | nil => simp [cutReference] at h
  | cons c cs ih =>
    unfold cutReference at h
    split at h
    · simp at h
    · simp at h
    · next heq =>
      simp only [Option.some.injEq, Prod.mk.injEq] at h
      obtain ⟨rfl, rfl⟩ := h
      simpa using heq
    · next heq =>
      simp only [List.cons.injEq] at heq
      obtain ⟨rfl, rfl⟩ := heq
      simp only [Option.map_eq_some_iff] at h
      obtain ⟨⟨n, r⟩, hn, hr⟩ := h
      simp only [Prod.mk.injEq] at hr
      obtain ⟨rfl, rfl⟩ := hr
      simp [ih hn]

/-- Replaces the references in what is left of a piece. `position` is the byte where it starts and
`stop` the byte where the piece ends. -/
def resolveFrom (stop position : Nat) (cs : List Char) : Except ReferenceFault (List Char) :=
  match cs with
  | [] => .ok []
  | c :: cs =>
    if c = '&' then
      match h : cutReference cs with
      | none => .error (.unterminated position stop)
      | some (name, rest) => do
        let character ← referenced (position + 1) name
        return character :: (← resolveFrom stop (position + 1 + Text.size name + 1) rest)
    else do
      return c :: (← resolveFrom stop (position + c.utf8Size) cs)
termination_by cs.length
decreasing_by
  · have := congrArg List.length (eq_of_cutReference h)
    simp at this
    simp
    omega
  · simp

/-- Replaces the references in a piece of character data. -/
def resolve (raw : List Char) : Except ReferenceFault (List Char) :=
  resolveFrom (Text.size raw) 0 raw

end ApiHeaders.Xml
