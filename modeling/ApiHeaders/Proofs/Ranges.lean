import ApiHeaders.Doc
import ApiHeaders.Proofs.Parsed

/-!
# Wrapped ranges

The values of a range fill lines greedily: a line takes values as long as the next one fits, and
the lines below the first are indented up to the first value. What closes a line, a comma or the
bracket at the end, has its place reserved when a value is taken.

## Main definitions

* `Doc.rejoin` puts indented lines together again.
* `Doc.BrokenBetween` says why a line was broken, and which values stand before the break.
* `Registry.GroupsFilled` says that every group has a member.

## Main statements

* `Doc.rejoin_fill`, `Doc.utf8ByteSize_fill` and `Doc.brokenBetween_fill` say what filled lines
  show, how long they are and where they are broken.
* `Registry.Parsed.groupsFilled` says that reading leaves no group without members.
* `range_wrapped` says all this of the range of a property.
-/

namespace ApiHeaders

namespace Doc

open Text (spaces)

variable {indent : Nat} {line closing : String} {values before after : List String}

/-! ### Lines put together again -/

/-- A line without the spaces in front of it. -/
def unindent (indent : Nat) (line : String) : String := .ofList (line.toList.drop indent)

/-- Lines as one, without the spaces in front of all but the first. -/
def rejoin (indent : Nat) : List String → String
  | [] => ""
  | first :: rest => " ".intercalate (first :: rest.map (unindent indent))

@[simp] theorem rejoin_singleton : rejoin indent [line] = line := by
  simp [rejoin, String.intercalate_singleton]

@[simp] theorem unindent_append (indent : Nat) (s : String) :
    unindent indent (spaces indent ++ s) = s := by
  simp [unindent, spaces]

theorem rejoin_cons (line s : String) (rest : List String) :
    rejoin indent (line :: (spaces indent ++ s) :: rest) =
      line ++ " " ++ unindent indent (rejoin indent ((spaces indent ++ s) :: rest)) := by
  have hrest : rejoin indent ((spaces indent ++ s) :: rest) =
      spaces indent ++ " ".intercalate (s :: rest.map (unindent indent)) :=
    String.intercalate_cons_append
  rw [hrest, unindent_append, rejoin, List.map_cons, unindent_append, String.intercalate_cons_cons]

/-! ### Filled lines -/

/-- Filled lines, the last of which is closed. -/
def closed (closing : String) (filled : List String × String) : List String :=
  filled.1 ++ [filled.2 ++ closing]

theorem closed_cons (closing line last : String) (lines : List String) :
    closed closing (line :: lines, last) = line :: closed closing (lines, last) := rfl

/-- Values as they follow others. -/
def further (values : List String) : String := String.join (values.map (", " ++ ·))

@[simp] theorem further_nil : further [] = "" := rfl

@[simp] theorem further_cons (value : String) (values : List String) :
    further (value :: values) = ", " ++ value ++ further values := String.join_cons

theorem intercalate_cons_eq_further (value : String) (values : List String) :
    ", ".intercalate (value :: values) = value ++ further values := by
  induction values generalizing value with
  | nil => simp [String.intercalate_singleton]
  | cons next values ih =>
    rw [String.intercalate_cons_cons, ih, further_cons]
    simp only [String.append_assoc]

/-- The first line goes on as it was, the others are indented. -/
theorem exists_fill (indent : Nat) (line closing : String) (values : List String) :
    ∃ s rest, closed closing (fill indent line values) = (line ++ s) :: rest ∧
      ∀ l ∈ rest, ∃ s, l = spaces indent ++ s := by
  fun_induction fill indent line values with
  | case1 line => exact ⟨closing, [], rfl, nofun⟩
  | case2 line value values _ ih =>
    obtain ⟨s, rest, heq, hrest⟩ := ih
    exact ⟨", " ++ value ++ s, rest, by rw [heq]; simp only [String.append_assoc], hrest⟩
  | case3 line value values _ lines last heq ih =>
    obtain ⟨s, rest, hfirst, hrest⟩ := ih
    rw [heq] at hfirst
    refine ⟨",", closed closing (lines, last), rfl, ?_⟩
    rw [hfirst]
    exact List.forall_mem_cons.2 ⟨⟨value ++ s, String.append_assoc ..⟩, hrest⟩

/-- Put together again, filled lines show the values one after the other. -/
theorem rejoin_fill (indent : Nat) (line closing : String) (values : List String) :
    rejoin indent (closed closing (fill indent line values)) =
      line ++ further values ++ closing := by
  fun_induction fill indent line values with
  | case1 line => simp [closed]
  | case2 line value values _ ih =>
    rw [ih, further_cons]
    simp only [String.append_assoc]
  | case3 line value values _ lines last heq ih =>
    obtain ⟨s, rest, hfirst, -⟩ := exists_fill indent (spaces indent ++ value) closing values
    rw [heq, String.append_assoc] at hfirst
    rw [heq, hfirst] at ih
    rw [closed_cons, hfirst, rejoin_cons, ih, further_cons]
    simp only [String.append_assoc, unindent_append]
    rfl

theorem utf8ByteSize_spaces (n : Nat) : (spaces n).utf8ByteSize = n := by
  induction n with
  | zero => rfl
  | succ n ih =>
    have hblank : ' '.utf8Size = 1 := by decide
    rw [spaces] at ih
    rw [spaces, List.replicate_succ, String.ofList_cons, String.utf8ByteSize_append, ih,
      String.utf8ByteSize_singleton, hblank, Nat.add_comm]

/-- Filled lines keep the margin if every value does on a line of its own. -/
theorem utf8ByteSize_fill (hclosing : closing.utf8ByteSize = 1)
    (hline : line.utf8ByteSize + 1 ≤ maxColumns)
    (hvalues : ∀ v ∈ values, indent + v.utf8ByteSize + 1 ≤ maxColumns) :
    ∀ l ∈ closed closing (fill indent line values), l.utf8ByteSize ≤ maxColumns := by
  have hcomma : ",".utf8ByteSize = 1 := rfl
  have hsep : ", ".utf8ByteSize = 2 := rfl
  fun_induction fill indent line values with
  | case1 line => simpa [closed, hclosing] using hline
  | case2 line value values hfits ih =>
    obtain ⟨-, hrest⟩ := List.forall_mem_cons.1 hvalues
    refine ih ?_ hrest
    simpa [fits, hsep] using hfits
  | case3 line value values _ lines last heq ih =>
    obtain ⟨hvalue, hrest⟩ := List.forall_mem_cons.1 hvalues
    rw [heq] at ih
    refine List.forall_mem_cons.2 ⟨?_, ih ?_ hrest⟩
    · simpa [hcomma] using hline
    · simpa [utf8ByteSize_spaces] using hvalue

/-- A line `l` was broken in front of the value that begins the next line `l'`, because it would not
have fit. The lines up to it hold the values before. -/
def BrokenBetween (indent : Nat) (line : String) (values before : List String) (l l' : String) :
    Prop :=
  ∃ s shown v hidden, values = shown ++ v :: hidden ∧ l = s ++ "," ∧
    rejoin indent (before ++ [l]) = line ++ further shown ++ "," ∧
    (∃ s, l' = spaces indent ++ v ++ s) ∧ maxColumns < (s ++ ", " ++ v).utf8ByteSize + 1

/-- Filled lines are broken only where the next value would not have fit. -/
theorem brokenBetween_fill {l l' : String}
    (h : closed closing (fill indent line values) = before ++ l :: l' :: after) :
    BrokenBetween indent line values before l l' := by
  fun_induction fill indent line values generalizing before with
  | case1 line =>
    have hlength := congrArg List.length h
    simp [closed] at hlength
    omega
  | case2 line value values _ ih =>
    obtain ⟨s, shown, v, hidden, rfl, hl, hjoin, hl', hsize⟩ := ih h
    refine ⟨s, value :: shown, v, hidden, rfl, hl, ?_, hl', hsize⟩
    rw [hjoin, further_cons]
    simp only [String.append_assoc]
  | case3 line value values hfits lines last heq ih =>
    obtain ⟨s', rest, hfirst, -⟩ := exists_fill indent (spaces indent ++ value) closing values
    rw [heq] at hfirst
    rw [closed_cons] at h
    cases before with
    | nil =>
      obtain ⟨rfl, hnext⟩ := List.cons.inj h
      rw [hfirst] at hnext
      obtain ⟨rfl, -⟩ := List.cons.inj hnext
      refine ⟨line, [], value, values, rfl, rfl, ?_, ⟨s', rfl⟩, ?_⟩
      · simp
      · have hsep : ", ".utf8ByteSize = 2 := rfl
        simpa [fits, hsep] using hfits
    | cons b before =>
      obtain ⟨rfl, hnext⟩ := List.cons.inj h
      rw [heq] at ih
      obtain ⟨s, shown, v, hidden, rfl, hl, hjoin, hl', hsize⟩ := ih hnext
      refine ⟨s, value :: shown, v, hidden, rfl, hl, ?_, hl', hsize⟩
      -- the lines up to the break begin, like all the lines below, with the value
      obtain ⟨first, more, hbefore⟩ := List.exists_cons_of_ne_nil
        (List.append_ne_nil_of_right_ne_nil before (List.cons_ne_nil l []))
      have hlines : first :: (more ++ l' :: after) = (spaces indent ++ value ++ s') :: rest := by
        rw [← List.cons_append, ← hbefore, ← hfirst, hnext]
        simp
      obtain ⟨rfl, -⟩ := List.cons.inj hlines
      rw [hbefore] at hjoin
      rw [List.cons_append, hbefore, String.append_assoc, rejoin_cons, ← String.append_assoc, hjoin,
        further_cons]
      simp only [String.append_assoc, unindent_append]
      rfl

/-! ### The lines of a range -/

theorem listLines_cons {value : String} (h : values ≠ []) (columns : Nat) :
    listLines columns (value :: values) =
      closed "]" (fill (columns + 1) (label columns "Range" ++ "[" ++ value) values) := by
  obtain ⟨next, values, rfl⟩ := List.exists_cons_of_ne_nil h
  rfl

theorem rangeLines_of_not_mem {groups : Table String (List String)} {range : String}
    (h : ¬['.', '.'] <:+: range.toList) (columns : Nat) :
    rangeLines groups columns range = listLines columns (rangeValues groups range) := by
  rw [rangeLines]
  split
  · next lower upper hbounds =>
    exact absurd ⟨lower, upper, by rw [eq_of_bounds? hbounds]; simp⟩ h
  · rfl

/-- From seven columns on, the space behind the colon is one of those that fill up the label. -/
theorem label_range {columns : Nat} (h : 7 ≤ columns) :
    label columns "Range" = Text.padRight columns "Range:" := by
  obtain ⟨n, rfl⟩ := Nat.exists_eq_add_of_le h
  have hlong : 7 + n - ("Range" ++ ": ").length = n := Nat.add_sub_cancel_left ..
  have hshort : 7 + n - "Range:".length = n + 1 := by
    have hlength : "Range:".length = 6 := rfl
    omega
  rw [label, Text.padRight, Text.padRight, hlong, hshort, spaces, spaces, List.replicate_succ,
    String.ofList_cons, ← String.append_assoc]
  rfl

theorem utf8ByteSize_label (columns : Nat) :
    (label columns "Range").utf8ByteSize = max 7 columns := by
  have hname : ("Range" ++ ": ").utf8ByteSize = 7 := rfl
  have hlength : ("Range" ++ ": ").length = 7 := rfl
  rw [label, Text.padRight, String.utf8ByteSize_append, utf8ByteSize_spaces, hname, hlength]
  omega

theorem indented_listLines (columns : Nat) (values : List String) :
    ∀ l ∈ (listLines columns values).tail, ∃ s, l = spaces (columns + 1) ++ s := by
  match values with
  | [] | [_] => nofun
  | value :: next :: values =>
    obtain ⟨s, rest, hfirst, hrest⟩ := exists_fill (columns + 1)
      (label columns "Range" ++ "[" ++ value) "]" (next :: values)
    rw [listLines_cons (List.cons_ne_nil next values), hfirst]
    exact hrest

theorem rejoin_listLines {value : String} (h : values ≠ []) (columns : Nat) :
    rejoin (columns + 1) (listLines columns (value :: values)) =
      label columns "Range" ++ "[" ++ ", ".intercalate (value :: values) ++ "]" := by
  rw [listLines_cons h, rejoin_fill, intercalate_cons_eq_further]
  simp only [String.append_assoc]

/-- Beside a value there is space for its label, a bracket and what closes the line. -/
theorem utf8ByteSize_listLines {value : String} {columns : Nat}
    (h : ∀ v ∈ value :: values, v.utf8ByteSize + max 7 columns ≤ 75) :
    ∀ l ∈ listLines columns (value :: values), l.utf8ByteSize ≤ maxColumns := by
  have hlabel := utf8ByteSize_label columns
  have hbracket : "[".utf8ByteSize = 1 := rfl
  have hmax : maxColumns = 77 := rfl
  obtain ⟨hvalue, hvalues⟩ := List.forall_mem_cons.1 h
  by_cases hnil : values = []
  · subst hnil
    intro l hl
    rw [List.mem_singleton.1 hl, String.utf8ByteSize_append]
    omega
  · rw [listLines_cons hnil]
    refine utf8ByteSize_fill rfl ?_ fun v hv => ?_
    · rw [String.utf8ByteSize_append, String.utf8ByteSize_append]
      omega
    · have hshort := hvalues v hv
      omega

theorem brokenBetween_listLines {value : String} {columns : Nat} {l l' : String}
    (h : listLines columns (value :: values) = before ++ l :: l' :: after) :
    BrokenBetween (columns + 1) (label columns "Range" ++ "[" ++ value) values before l l' := by
  by_cases hnil : values = []
  · subst hnil
    have hlength := congrArg List.length h
    simp [listLines] at hlength
    omega
  · rw [listLines_cons hnil] at h
    exact brokenBetween_fill h

theorem labelColumns_of_range {p : Property} {range : String} (h : p.range = some range) :
    7 ≤ labelColumns p ∧ labelColumns p ≤ 9 := by
  have hrange : "Range: ".length = 7 := rfl
  have hdefault : "Default: ".length = 9 := rfl
  rw [labelColumns, h, hrange, hdefault]
  split <;> simp

theorem rangeLines_infix {groups : Table String (List String)} {p : Property} {range : String}
    (h : p.range = some range) :
    rangeLines groups (labelColumns p) range <:+: propertyLines groups p := by
  unfold propertyLines
  simp only [h, Option.map_some, Option.getD_some]
  rw [List.append_assoc]
  exact ⟨_, _, rfl⟩

end Doc

/-! ### Groups with members -/

namespace Registry

variable {r : Registry}

/-- Whether every group has a member. -/
def GroupsFilled (r : Registry) : Prop :=
  ∀ name members, r.group? name = some members → members ≠ []

theorem GroupsFilled.take (h : r.GroupsFilled) (item : Item) : (r.take item).GroupsFilled := by
  cases item with
  | member group name =>
    intro other members hmembers
    rw [group?, Registry.take, addMember, Table.get?_upsert] at hmembers
    split at hmembers
    · cases hmembers
      exact List.append_ne_nil_of_right_ne_nil _ (List.cons_ne_nil name [])
    · exact h other members hmembers
  | declaration | set | skipped => exact h

theorem Parsed.groupsFilled (h : r.Parsed) : r.GroupsFilled :=
  h.invariant nofun (fun _ item hr => hr.take item) fun _ _ hr => hr

/-- Every part of a range stands for some value. -/
theorem GroupsFilled.rangeValues_ne_nil (h : r.GroupsFilled) (range : String) :
    Doc.rangeValues r.groups range ≠ [] := by
  obtain ⟨piece, pieces, hpieces⟩ := List.exists_cons_of_ne_nil
    (Text.splitOn_ne_nil ',' range.toList)
  have hvalue (value : String) : (r.groups.get? value).getD [value] ≠ [] := by
    cases hgroup : r.groups.get? value with
    | none => exact List.cons_ne_nil value []
    | some members => exact h value members hgroup
  rw [Doc.rangeValues, Text.pieces, hpieces]
  exact List.append_ne_nil_of_left_ne_nil (hvalue _) _

end Registry

/-- A range that is no interval shows its values, one alone or several between brackets, behind a
label that takes seven columns or more. Several values are shown on lines below each other, all but
the first of which are indented; put together again, the lines show all values, in order. The lines
keep the margin if the values are short enough for it, and they are broken only in front of a value
that would not have fit. -/
theorem range_wrapped (r : Registry) {range : String} (hrange : ¬['.', '.'] <:+: range.toList) :
    (∀ p : Property, p.range = some range → 7 ≤ Doc.labelColumns p ∧ Doc.labelColumns p ≤ 9 ∧
      Doc.rangeLines r.groups (Doc.labelColumns p) range <:+: Doc.propertyLines r.groups p) ∧
    (r.Parsed → r.GroupsFilled) ∧ (r.GroupsFilled → Doc.rangeValues r.groups range ≠ []) ∧
    ∀ (k : Nat) (v : String) (vs : List String), Doc.rangeValues r.groups range = v :: vs →
      let label := Doc.label k "Range"
      let lines := Doc.rangeLines r.groups k range
      (7 ≤ k → label = Text.padRight k "Range:") ∧
      (vs = [] → lines = [label ++ v]) ∧
      (vs ≠ [] → (∀ l ∈ lines.tail, ∃ s, l = Text.spaces (k + 1) ++ s) ∧
        Doc.rejoin (k + 1) lines = label ++ "[" ++ ", ".intercalate (v :: vs) ++ "]") ∧
      ((∀ value ∈ v :: vs, value.utf8ByteSize + max 7 k ≤ 75) →
        ∀ l ∈ lines, l.utf8ByteSize ≤ 77) ∧
      ∀ before l l' after, lines = before ++ l :: l' :: after →
        ∃ s shown value hidden, v :: vs = shown ++ value :: hidden ∧ l = s ++ "," ∧
          Doc.rejoin (k + 1) (before ++ [l]) = label ++ "[" ++ ", ".intercalate shown ++ "," ∧
          (∃ s, l' = Text.spaces (k + 1) ++ value ++ s) ∧
          77 < (s ++ ", " ++ value).utf8ByteSize + 1 := by
  refine ⟨fun p hp => ?_, fun h => h.groupsFilled, fun h => h.rangeValues_ne_nil range, ?_⟩
  · obtain ⟨hlow, hhigh⟩ := Doc.labelColumns_of_range hp
    exact ⟨hlow, hhigh, Doc.rangeLines_infix hp⟩
  intro k v vs hvalues label lines
  have hlines : lines = Doc.listLines k (v :: vs) := by
    rw [← hvalues]
    exact Doc.rangeLines_of_not_mem hrange k
  refine ⟨Doc.label_range, fun hvs => ?_, fun hvs => ⟨?_, ?_⟩, fun hshort => ?_, ?_⟩
  · rw [hlines, hvs]
    rfl
  · rw [hlines]
    exact Doc.indented_listLines k (v :: vs)
  · rw [hlines]
    exact Doc.rejoin_listLines hvs k
  · rw [hlines]
    exact Doc.utf8ByteSize_listLines hshort
  · intro before l l' after h
    obtain ⟨s, shown, value, hidden, hvs, hl, hjoin, hl', hlong⟩ :=
      Doc.brokenBetween_listLines (hlines.symm.trans h)
    refine ⟨s, v :: shown, value, hidden, by rw [hvs, List.cons_append], hl, ?_, hl', hlong⟩
    rw [hjoin, Doc.intercalate_cons_eq_further]
    simp only [String.append_assoc]
    rfl

/-- A registry with a group of four members. -/
def effectRegistry : Registry :=
  ["AL_EFFECT_REVERB_WITH_LONG_NAME", "AL_EFFECT_CHORUS_WITH_LONG_NAME", "AL_EFFECT_DISTORTION",
    "AL_EFFECT_ECHO"].foldl (·.addMember "Effect" ·) {}

/-- A property whose range is an enumerant or a member of the group. -/
def effectProperty : Property where
  range := some "AL_EFFECT_NULL, Effect"
  default := some "AL_EFFECT_NULL"

/-- The range takes three lines: neither of the first two has space for the next value. -/
theorem effect_range_wrapped :
    let lines := Doc.rangeLines effectRegistry.groups 9 "AL_EFFECT_NULL, Effect"
    lines = ["Range:   [AL_EFFECT_NULL, AL_EFFECT_REVERB_WITH_LONG_NAME,",
      "          AL_EFFECT_CHORUS_WITH_LONG_NAME, AL_EFFECT_DISTORTION,",
      "          AL_EFFECT_ECHO]"] ∧
    lines <:+: Doc.propertyLines effectRegistry.groups effectProperty ∧
    Doc.rejoin 10 lines =
      "Range:   [AL_EFFECT_NULL, AL_EFFECT_REVERB_WITH_LONG_NAME, " ++
        "AL_EFFECT_CHORUS_WITH_LONG_NAME, AL_EFFECT_DISTORTION, AL_EFFECT_ECHO]" ∧
    ∀ l ∈ lines, l.utf8ByteSize ≤ 77 := by
  have hrange : ¬['.', '.'] <:+: "AL_EFFECT_NULL, Effect".toList := by decide +kernel
  obtain ⟨hproperty, -, -, hlines⟩ := range_wrapped effectRegistry hrange
  obtain ⟨-, -, hjoin, hmargin, -⟩ := hlines 9 "AL_EFFECT_NULL"
    ["AL_EFFECT_REVERB_WITH_LONG_NAME", "AL_EFFECT_CHORUS_WITH_LONG_NAME", "AL_EFFECT_DISTORTION",
      "AL_EFFECT_ECHO"] (by decide +kernel)
  refine ⟨by decide +kernel, (hproperty effectProperty rfl).2.2, ?_, hmargin (by decide +kernel)⟩
  rw [(hjoin (by decide)).2]
  decide +kernel

end ApiHeaders
