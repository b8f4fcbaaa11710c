/-!
# Taking a text apart

## Main definitions

* `splitOn` cuts at every occurrence of a character, so that n occurrences give n + 1 pieces.
* `lines` are the lines of a text. A line ends at a line feed; one carriage return right before it
  belongs to the line's end. A text does not have an empty last line.
* `stripStart?` and `stripEnd?` take a known text off one end.
* `breakAt?` and `breakAtLast?` cut around the first or the last occurrence of a character.
-/

namespace ApiHeaders.Text

/-- The pieces of a list of characters between the occurrences of `sep`. There is always one. -/
def splitOn (sep : Char) : List Char → List (List Char)
  | [] => [[]]
  | c :: cs =>
    if c = sep then [] :: splitOn sep cs
    else
      match splitOn sep cs with
      | [] => [[c]]
      | piece :: pieces => (c :: piece) :: pieces

theorem splitOn_ne_nil (sep : Char) (cs : List Char) : splitOn sep cs ≠ [] := by
  cases cs with
  | nil => simp [splitOn]
  | cons c cs =>
    by_cases h : c = sep
    · simp [splitOn, h]
    · simp only [splitOn, h, if_false]
      split <;> simp

/-- The pieces of a text between the occurrences of `sep`. -/
def pieces (sep : Char) (s : String) : List String := (splitOn sep s.toList).map .ofList

/-- Takes a known text off the start. -/
def stripStart? : List Char → List Char → Option (List Char)
  | [], cs => some cs
  | _ :: _, [] => none
  | p :: ps, c :: cs => if p = c then stripStart? ps cs else none

theorem stripStart?_eq_some_iff {ps cs rest : List Char} :
    stripStart? ps cs = some rest ↔ cs = ps ++ rest := by
  induction ps generalizing cs with
  | nil => simp [stripStart?]
  | cons p ps ih =>
    cases cs with
    | nil => simp [stripStart?]
    | cons c cs =>
      by_cases h : p = c
      · simp [stripStart?, h, ih]
      · simp [stripStart?, h, Ne.symm h]

/-- Takes a known text off the end. -/
def stripEnd? (ps cs : List Char) : Option (List Char) :=
  (stripStart? ps.reverse cs.reverse).map .reverse

theorem stripEnd?_eq_some_iff {ps cs rest : List Char} :
    stripEnd? ps cs = some rest ↔ cs = rest ++ ps := by
  simp only [stripEnd?, Option.map_eq_some_iff, stripStart?_eq_some_iff]
  constructor
  · rintro ⟨r, h, rfl⟩
    simpa using congrArg List.reverse h
  · rintro rfl
    exact ⟨rest.reverse, by simp, by simp⟩

/-- What stands before and after the first occurrence of `sep`. -/
def breakAt? (sep : Char) : List Char → Option (List Char × List Char)
  | [] => none
  | c :: cs =>
    if c = sep then some ([], cs)
    else (breakAt? sep cs).map fun (before, after) => (c :: before, after)

theorem eq_of_breakAt? {sep : Char} {cs before after : List Char}
    (h : breakAt? sep cs = some (before, after)) : cs = before ++ sep :: after ∧ sep ∉ before := by
  induction cs generalizing before with
  | nil => simp [breakAt?] at h
  | cons c cs ih =>
    by_cases hc : c = sep
    · simp only [breakAt?, hc, if_true, Option.some.injEq, Prod.mk.injEq] at h
      obtain ⟨rfl, rfl⟩ := h
      simp [hc]
    · simp only [breakAt?, hc, if_false, Option.map_eq_some_iff] at h
      obtain ⟨⟨b, a⟩, hb, heq⟩ := h
      simp only [Prod.mk.injEq] at heq
      obtain ⟨rfl, rfl⟩ := heq
      obtain ⟨rfl, hnot⟩ := ih hb
      simp [hnot, Ne.symm hc]

/-- What stands before and after the last occurrence of `sep`. -/
def breakAtLast? (sep : Char) (cs : List Char) : Option (List Char × List Char) :=
  (breakAt? sep cs.reverse).map fun (after, before) => (before.reverse, after.reverse)

theorem eq_of_breakAtLast? {sep : Char} {cs before after : List Char}
    (h : breakAtLast? sep cs = some (before, after)) :
    cs = before ++ sep :: after ∧ sep ∉ after := by
  simp only [breakAtLast?, Option.map_eq_some_iff] at h
  obtain ⟨⟨a, b⟩, hab, heq⟩ := h
  simp only [Prod.mk.injEq] at heq
  obtain ⟨rfl, rfl⟩ := heq
  obtain ⟨hcs, hnot⟩ := eq_of_breakAt? hab
  exact ⟨by simpa using congrArg List.reverse hcs, by simpa using hnot⟩

/-- A line as it stands before its line feed, without one carriage return at its end. -/
def dropReturn (cs : List Char) : List Char := (stripEnd? ['\r'] cs).getD cs

/-- The lines of a text. -/
def lines (s : String) : List String :=
  let ended := splitOn '\n' s.toList
  (ended.dropLast.map dropReturn ++ ended.getLast?.toList.filter (· ≠ [])).map .ofList

/-- Lines joined by line feeds, without one at the end. -/
def unlines (ls : List String) : String := "\n".intercalate ls

end ApiHeaders.Text
