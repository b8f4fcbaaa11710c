import ApiHeaders.Proofs.Bytes
import ApiHeaders.Proofs.Tokens
import Mathlib.Order.Bounds.Basic

/-!
# The first place of a name

The name of a function pointer type is looked for from the left, and where it is part of a longer
identifier the search goes on behind it. Places that overlap such a one are never tried. They need
not be: each of them is behind a character of an identifier. So what is found is the first of all
places at which the name stands alone, however its characters repeat.

## Main definitions

* `FunctionPointer.DisjointPlaces` says which places of a text the search tries.
* `FunctionPointer.AloneAt` says that bytes stand alone at a byte of a text.
* `FunctionPointer.tokenOffset?` is the byte at which a name is found.

## Main statements

* `FunctionPointer.exists_disjointPlaces` says that the search takes the first place that it tries
  at which the name stands alone.
* `FunctionPointer.token_found_first` says that there is no such place before, of all places.
-/

namespace ApiHeaders.FunctionPointer

variable {token cs pre post : List Char} {before : Option Char} {skip i : Nat} {c : Char}

/-! ### The places that are tried -/

/-- The places of a token, with what stands before and after it, of which none begins before the
end of the one before. There is no room for a further one: wherever else the token occurs, it begins
inside of one of these. -/
structure DisjointPlaces (token cs : List Char) (places : List (List Char × List Char)) :
    Prop where
  occurs : ∀ p ∈ places, cs = p.1 ++ token ++ p.2
  disjoint : places.Pairwise fun p q => p.1.length + token.length ≤ q.1.length
  leftmost : ∀ pre post, cs = pre ++ token ++ post →
    ∃ p ∈ places, p.1.length ≤ pre.length ∧ pre.length < p.1.length + token.length

/-- A place of a text, seen from the text with one more character in front. -/
def behind (c : Char) (p : List Char × List Char) : List Char × List Char := (c :: p.1, p.2)

/-- The places that are tried from behind the next `skip` characters on. -/
def placesFrom (token : List Char) (skip : Nat) : List Char → List (List Char × List Char)
  | [] => []
  | c :: cs =>
    match (if skip = 0 then Text.stripStart? token (c :: cs) else none) with
    | some after => ([], after) :: (placesFrom token (token.length - 1) cs).map (behind c)
    | none => (placesFrom token (skip - 1) cs).map (behind c)

/-- The first place at which a token stands alone is found. -/
theorem findTokenFrom_eq_find? (hne : token ≠ []) :
    findTokenFrom token before skip cs =
      (placesFrom token skip cs).find? fun p => standsAlone (p.1.getLast?.or before) p.2.head? := by
  induction cs generalizing before skip with
  | nil =>
    have hnone : (if skip = 0 then Text.stripStart? token [] else none) = none := by
      cases hattempt : (if skip = 0 then Text.stripStart? token [] else none) with
      | none => rfl
      | some after => exact absurd (eq_of_attempt hattempt) (by simp [hne])
    rw [findTokenFrom, hnone]
    rfl
  | cons c cs ih =>
    have hrest (skip : Nat) :
        ((findTokenFrom token (some c) skip cs).map fun found => (c :: found.1, found.2)) =
          ((placesFrom token skip cs).map (behind c)).find? fun p =>
            standsAlone (p.1.getLast?.or before) p.2.head? := by
      rw [ih, List.find?_map]
      have hlast (p : List Char × List Char) :
          (behind c p).1.getLast?.or before = p.1.getLast?.or (some c) := by
        cases hp : p.1.getLast? <;> simp [behind, List.getLast?_cons, hp]
      simp only [Function.comp_def, hlast]
      rfl
    rw [findTokenFrom, placesFrom]
    cases (if skip = 0 then Text.stripStart? token (c :: cs) else none) with
    | none => exact hrest _
    | some after =>
      by_cases halone : standsAlone before after.head?
      · simp [halone]
      · have hskipped := hrest (token.length - 1)
        simpa [halone] using hskipped

theorem occurs_of_mem_placesFrom {p : List Char × List Char} (h : p ∈ placesFrom token skip cs) :
    cs = p.1 ++ token ++ p.2 ∧ skip ≤ p.1.length := by
  induction cs generalizing skip p with
  | nil => cases h
  | cons c cs ih =>
    have hbehind {skip' : Nat} (hskip : skip ≤ skip' + 1)
        (h : p ∈ (placesFrom token skip' cs).map (behind c)) :
        c :: cs = p.1 ++ token ++ p.2 ∧ skip ≤ p.1.length := by
      obtain ⟨p, hp, rfl⟩ := List.mem_map.1 h
      obtain ⟨rfl, hle⟩ := ih hp
      exact ⟨rfl, Nat.le_trans hskip (Nat.succ_le_succ hle)⟩
    rw [placesFrom] at h
    split at h
    · next after hafter =>
      have hzero : skip = 0 := by
        by_contra hskip
        simp [hskip] at hafter
      rcases List.mem_cons.1 h with rfl | h
      · exact ⟨eq_of_attempt hafter, Nat.le_of_eq hzero⟩
      · exact hbehind (by omega) h
    · exact hbehind (by omega) h

theorem pairwise_placesFrom (hne : token ≠ []) :
    (placesFrom token skip cs).Pairwise fun p q => p.1.length + token.length ≤ q.1.length := by
  have hpos := List.length_pos_iff.2 hne
  induction cs generalizing skip with
  | nil => exact .nil
  | cons c cs ih =>
    have hbehind (skip : Nat) : ((placesFrom token skip cs).map (behind c)).Pairwise
        fun p q => p.1.length + token.length ≤ q.1.length := by
      refine List.pairwise_map.2 (ih.imp fun {p q} hpq => ?_)
      simp only [behind, List.length_cons]
      omega
    rw [placesFrom]
    split
    · refine List.pairwise_cons.2 ⟨fun p hp => ?_, hbehind _⟩
      obtain ⟨q, hq, rfl⟩ := List.mem_map.1 hp
      have hle := (occurs_of_mem_placesFrom hq).2
      simp only [behind, List.length_nil, List.length_cons]
      omega
    · exact hbehind _

/-- Every occurrence is tried, or it begins inside of one that is. -/
theorem exists_mem_placesFrom (hne : token ≠ []) (h : cs = pre ++ token ++ post)
    (hskip : skip ≤ pre.length) :
    ∃ p ∈ placesFrom token skip cs,
      p.1.length ≤ pre.length ∧ pre.length < p.1.length + token.length := by
  have hpos := List.length_pos_iff.2 hne
  induction cs generalizing skip pre with
  | nil => simp [hne] at h
  | cons c cs ih =>
    have hbehind {skip' : Nat} {pre' : List Char} (h : cs = pre' ++ token ++ post)
        (hskip : skip' ≤ pre'.length) :
        ∃ p ∈ (placesFrom token skip' cs).map (behind c),
          p.1.length ≤ (c :: pre').length ∧ (c :: pre').length < p.1.length + token.length := by
      obtain ⟨p, hp, hle, hlt⟩ := ih h hskip
      refine ⟨behind c p, List.mem_map_of_mem hp, ?_⟩
      simp only [behind, List.length_cons]
      omega
    rw [placesFrom]
    cases pre with
    | nil =>
      have hzero : skip = 0 := by simpa using hskip
      have hattempt : Text.stripStart? token (c :: cs) = some post :=
        Text.stripStart?_eq_some_iff.2 h
      rw [if_pos hzero, hattempt]
      exact ⟨([], post), List.mem_cons_self, Nat.le_refl 0, by simpa using hpos⟩
    | cons d pre =>
      obtain ⟨rfl, hcs⟩ := List.cons.inj h
      rw [List.length_cons] at hskip
      split
      · next after _ =>
        by_cases hinside : pre.length + 1 < token.length
        · exact ⟨([], after), List.mem_cons_self, Nat.zero_le _, by simpa using hinside⟩
        · obtain ⟨p, hp, hplace⟩ := hbehind hcs (by omega : token.length - 1 ≤ pre.length)
          exact ⟨p, List.mem_cons_of_mem _ hp, hplace⟩
      · exact hbehind hcs (by omega)

/-- The search tries places that do not overlap, and takes the first one at which the token stands
alone. -/
theorem exists_disjointPlaces (hne : token ≠ []) (cs : List Char) :
    ∃ places, DisjointPlaces token cs places ∧
      findToken token cs = places.find? fun p => standsAlone p.1.getLast? p.2.head? := by
  refine ⟨placesFrom token 0 cs, ⟨fun p hp => (occurs_of_mem_placesFrom hp).1,
    pairwise_placesFrom hne, fun pre post h => exists_mem_placesFrom hne h (Nat.zero_le _)⟩, ?_⟩
  rw [findToken, findTokenFrom_eq_find? hne]
  simp only [Option.or_none]

/-! ### Bytes of names -/

/-- Whether a byte is a character that can be part of an identifier. -/
def isIdentifierByte (b : UInt8) : Bool := isIdentifierChar (.ofUInt8 b)

/-- The bytes of a token stand at a byte of a text, with no byte of an identifier next to them. -/
def AloneAt (token text : List UInt8) (i : Nat) : Prop :=
  ∃ before after, text = before ++ token ++ after ∧ before.length = i ∧
    before.getLast?.all (!isIdentifierByte ·) ∧ after.head?.all (!isIdentifierByte ·)

/-- All bytes of a character say alike whether it can be part of an identifier. -/
theorem isIdentifierByte_of_mem (c : Char) :
    ∀ b ∈ String.utf8EncodeChar c, isIdentifierByte b = isIdentifierChar c := by
  intro b hb
  have hhigh {d : Char} (hd : 128 ≤ d.toNat) : isIdentifierChar d = false := by
    rw [Bool.eq_false_iff]
    intro hident
    have hrange := toNat_of_isIdentifierChar hident
    omega
  have hnat : (Char.ofUInt8 b).toNat = b.toNat := rfl
  by_cases hc : c.toNat < 128
  · rw [Text.utf8EncodeChar_of_lt hc, List.mem_singleton] at hb
    have hsame : Char.ofUInt8 b = c := Char.toNat_inj.1 (by rw [hnat, hb, Text.toNat_toUInt8 hc])
    rw [isIdentifierByte, hsame]
  · have hc := Nat.le_of_not_lt hc
    have hle := Text.le_toNat_of_mem_utf8EncodeChar hc hb
    rw [isIdentifierByte, hhigh hc, hhigh (hnat ▸ hle)]

/-- Among bytes a token stands alone where it does among characters. -/
theorem aloneAt_iff (hne : token ≠ []) :
    AloneAt (Text.bytes token) (Text.bytes cs) i ↔
      ∃ pre post, Occurs token none cs pre post ∧ Text.size pre = i := by
  have hbyte (c : Char) : ∀ b ∈ String.utf8EncodeChar c,
      (!isIdentifierByte b) = (!isIdentifierChar c) := fun b hb => by
    rw [isIdentifierByte_of_mem c b hb]
  constructor
  · rintro ⟨us, vs, heq, rfl, hleft, hright⟩
    obtain ⟨pre, post, rfl, rfl, rfl⟩ := Text.exists_of_bytes_eq hne heq
    rw [Text.all_getLast?_bytes hbyte] at hleft
    rw [Text.all_head?_bytes hbyte] at hright
    exact ⟨pre, post, occurs_none_iff.2 ⟨rfl, hleft, hright⟩, (Text.length_bytes pre).symm⟩
  · rintro ⟨pre, post, h, rfl⟩
    obtain ⟨rfl, hleft, hright⟩ := occurs_none_iff.1 h
    refine ⟨Text.bytes pre, Text.bytes post, by rw [Text.bytes_append, Text.bytes_append],
      Text.length_bytes pre, ?_, ?_⟩
    · rwa [Text.all_getLast?_bytes hbyte]
    · rwa [Text.all_head?_bytes hbyte]

/-! ### The first place -/

/-- The byte of a text at which a token is found. -/
def tokenOffset? (token cs : List Char) : Option Nat :=
  (findToken token cs).map fun found => Text.size found.1

theorem tokenOffset?_eq_none_iff (hname : IsIdentifier token) :
    tokenOffset? token cs = none ↔ ∀ i, ¬AloneAt (Text.bytes token) (Text.bytes cs) i := by
  rw [tokenOffset?, Option.map_eq_none_iff]
  constructor
  · intro hnone i halone
    obtain ⟨pre, post, hoccurs, -⟩ := (aloneAt_iff hname.ne_nil).1 halone
    exact absent_of_findToken hname hnone pre post hoccurs
  · intro hnever
    cases hfound : findToken token cs with
    | none => rfl
    | some found =>
      have hoccurs := ((findToken_eq_some_iff hname).1 hfound).1
      exact absurd ((aloneAt_iff hname.ne_nil).2 ⟨_, _, hoccurs, rfl⟩) (hnever _)

theorem isLeast_of_tokenOffset? (hname : IsIdentifier token) (h : tokenOffset? token cs = some i) :
    IsLeast {j | AloneAt (Text.bytes token) (Text.bytes cs) j} i := by
  obtain ⟨⟨pre, post⟩, hfound, rfl⟩ := Option.map_eq_some_iff.1 h
  obtain ⟨hoccurs, hfirst⟩ := (findToken_eq_some_iff hname).1 hfound
  refine ⟨(aloneAt_iff hname.ne_nil).2 ⟨pre, post, hoccurs, rfl⟩, fun j hj => ?_⟩
  obtain ⟨pre', post', hoccurs', rfl⟩ := (aloneAt_iff hname.ne_nil).1 hj
  have hpre : pre <+: cs := ⟨token ++ post, by rw [hoccurs.eq, List.append_assoc]⟩
  have hpre' : pre' <+: cs := ⟨token ++ post', by rw [hoccurs'.eq, List.append_assoc]⟩
  exact Text.size_le_of_prefix hpre hpre' (hfirst pre' post' hoccurs')

/-- The search for a name only tries places that do not overlap. All the same it finds the first
byte at which the bytes of the name stand with no byte of an identifier next to them, and nothing
only if there is none. -/
theorem token_found_first (hname : IsIdentifier token) (cs : List Char) :
    (∃ places, DisjointPlaces token cs places ∧
      findToken token cs = places.find? fun p => standsAlone p.1.getLast? p.2.head?) ∧
    (∀ pre post, findToken token cs = some (pre, post) → cs = pre ++ token ++ post) ∧
    (∀ i, tokenOffset? token cs = some i ↔
      IsLeast {j | AloneAt (Text.bytes token) (Text.bytes cs) j} i) ∧
    (tokenOffset? token cs = none ↔ ∀ i, ¬AloneAt (Text.bytes token) (Text.bytes cs) i) := by
  refine ⟨exists_disjointPlaces hname.ne_nil cs,
    fun pre post h => ((findToken_eq_some_iff hname).1 h).1.eq,
    fun i => ⟨isLeast_of_tokenOffset? hname, fun hleast => ?_⟩, tokenOffset?_eq_none_iff hname⟩
  cases hoffset : tokenOffset? token cs with
  | none => exact absurd hleast.1 ((tokenOffset?_eq_none_iff hname).1 hoffset i)
  | some j => rw [(isLeast_of_tokenOffset? hname hoffset).unique hleast]

/-- The first place is part of a longer identifier, and a place that overlaps it is never tried. -/
theorem overlapping_name_found :
    let name := "a_a".toList
    let text := "éa_a_a€a_a(".toList
    IsIdentifier name ∧
      findToken name text = some ("éa_a_a€".toList, "(".toList) ∧
      IsLeast {j | AloneAt (Text.bytes name) (Text.bytes text) j} 10 ∧
      ∀ i, ¬AloneAt (Text.bytes name) (Text.bytes "a_a_a".toList) i := by
  intro name text
  have hname : IsIdentifier name := by decide
  have hoffset : tokenOffset? name text = some 10 := by decide +kernel
  have hnone : tokenOffset? name "a_a_a".toList = none := by decide +kernel
  obtain ⟨-, -, hfound, -⟩ := token_found_first hname text
  obtain ⟨-, -, -, hnever⟩ := token_found_first hname "a_a_a".toList
  exact ⟨hname, by decide +kernel, (hfound 10).1 hoffset, hnever.1 hnone⟩

end ApiHeaders.FunctionPointer
