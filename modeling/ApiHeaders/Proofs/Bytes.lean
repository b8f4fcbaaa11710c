import ApiHeaders.Text.Size
import Mathlib.Data.List.Basic

/-!
# Texts as bytes

A position in a text is a number of bytes of its UTF-8 form. Where the bytes of one text stand among
those of another, the characters do so as well, because the first byte of a character looks like no
other byte. A character of ASCII is one byte, and the bytes of every other one are at least 128.

## Main definitions

* `Text.bytes` is the UTF-8 form of a text.

## Main statements

* `Text.exists_of_bytes_eq` says that bytes which are a text start and end between characters.
* `Text.all_head?_bytes` and `Text.all_getLast?_bytes` test the characters at the ends of a text by
  their bytes.
* `Text.count_bytes` says that a character of ASCII can be counted byte by byte.
-/

namespace ApiHeaders.Text

variable {c : Char} {b : UInt8} {cs ds : List Char} {us vs : List UInt8}

/-- The UTF-8 form of a text. -/
def bytes (cs : List Char) : List UInt8 := cs.flatMap String.utf8EncodeChar

@[simp] theorem bytes_nil : bytes [] = [] := rfl

@[simp] theorem bytes_cons (c : Char) (cs : List Char) :
    bytes (c :: cs) = String.utf8EncodeChar c ++ bytes cs := List.flatMap_cons

@[simp] theorem bytes_append (cs ds : List Char) : bytes (cs ++ ds) = bytes cs ++ bytes ds :=
  List.flatMap_append

theorem utf8Encode_eq (cs : List Char) : cs.utf8Encode = (bytes cs).toByteArray := rfl

@[simp] theorem length_bytes (cs : List Char) : (bytes cs).length = size cs := by
  induction cs with
  | nil => rfl
  | cons c cs ih => simp [ih]

theorem utf8ByteSize_ofList (cs : List Char) : (String.ofList cs).utf8ByteSize = size cs := by
  induction cs with
  | nil => rfl
  | cons c cs ih => simp [String.ofList_cons, ih]

/-- Where some characters of a text end is a boundary between characters. -/
theorem isValid_size (pre post : List Char) :
    (⟨size pre⟩ : String.Pos.Raw).IsValid (.ofList (pre ++ post)) := by
  rw [String.ofList_append, ← utf8ByteSize_ofList]
  exact String.Pos.Raw.isValid_rawEndPos.append_right _

/-- Of two places of a text, the one with fewer characters before it has fewer bytes before it. -/
theorem size_le_of_prefix {xs ys : List Char} (hxs : xs <+: cs) (hys : ys <+: cs)
    (hle : xs.length ≤ ys.length) : size xs ≤ size ys := by
  obtain ⟨between, rfl⟩ := List.prefix_of_prefix_length_le hxs hys hle
  rw [size_append]
  exact Nat.le_add_right ..

/-! ### Places among bytes -/

/-- A byte that a character starts with is where one starts. -/
theorem exists_of_firstByte (hb : b.IsUTF8FirstByte) (h : bytes cs = us ++ b :: vs) :
    ∃ pre post, cs = pre ++ post ∧ bytes pre = us ∧ bytes post = b :: vs := by
  induction cs generalizing us with
  | nil => simp at h
  | cons c cs ih =>
    have hlater (us' : List UInt8) (hus : us = String.utf8EncodeChar c ++ us')
        (h : bytes cs = us' ++ b :: vs) :
        ∃ pre post, c :: cs = pre ++ post ∧ bytes pre = us ∧ bytes post = b :: vs := by
      obtain ⟨pre, post, rfl, hpre, hpost⟩ := ih h
      exact ⟨c :: pre, post, rfl, by rw [bytes_cons, hpre, hus], hpost⟩
    rw [bytes_cons] at h
    rcases List.append_eq_append_iff.1 h with ⟨us', hus, hcs⟩ | ⟨ws, hc, hws⟩
    · exact hlater us' hus hcs
    · cases ws with
      | nil => exact hlater [] (by simpa using hc.symm) hws.symm
      | cons w ws =>
        obtain ⟨rfl, -⟩ := List.cons.inj hws
        -- the byte belongs to the first character, of which it can only be the first
        have hlength : us.length < (String.utf8EncodeChar c).length := by simp [hc]
        have hbyte : (String.utf8EncodeChar c)[us.length] = b := by simp [hc]
        have hzero : us.length = 0 := UInt8.isUTF8FirstByte_getElem_utf8EncodeChar.1 (hbyte ▸ hb)
        obtain rfl := List.length_eq_zero_iff.1 hzero
        exact ⟨[], c :: cs, rfl, rfl, h⟩

/-- Bytes that are a text start and end between two characters. -/
theorem exists_of_bytes_eq (hne : ds ≠ []) (h : bytes cs = us ++ bytes ds ++ vs) :
    ∃ pre post, cs = pre ++ ds ++ post ∧ bytes pre = us ∧ bytes post = vs := by
  obtain ⟨d, ds', rfl⟩ := List.exists_cons_of_ne_nil hne
  obtain ⟨b, bs, hd⟩ := List.exists_cons_of_ne_nil (String.utf8EncodeChar_ne_nil (c := d))
  have hfirst : b.IsUTF8FirstByte := by
    have hzero := UInt8.isUTF8FirstByte_getElem_zero_utf8EncodeChar (c := d)
    simpa [hd] using hzero
  have hbytes : bytes (d :: ds') = b :: (bs ++ bytes ds') := by rw [bytes_cons, hd]; rfl
  have hplace : bytes cs = us ++ b :: (bs ++ bytes ds' ++ vs) := by
    rw [h, hbytes, List.append_assoc]
    rfl
  obtain ⟨pre, rest, rfl, hpre, hrest⟩ := exists_of_firstByte hfirst hplace
  have hprefix : d :: ds' <+: rest := by
    refine List.isPrefix_of_utf8Encode_append_eq_utf8Encode vs.toByteArray ?_
    rw [utf8Encode_eq, utf8Encode_eq, ← List.toByteArray_append, hrest, hbytes, List.cons_append]
  obtain ⟨post, rfl⟩ := hprefix
  refine ⟨pre, post, by rw [List.append_assoc], hpre, ?_⟩
  rw [bytes_append, hbytes] at hrest
  exact List.append_cancel_left hrest

/-! ### Characters of ASCII -/

theorem utf8EncodeChar_of_lt (h : c.toNat < 128) : String.utf8EncodeChar c = [c.toUInt8] :=
  String.utf8EncodeChar_eq_singleton
    (Char.utf8Size_eq_one_iff.2 (UInt32.le_iff_toNat_le.2 (Nat.le_of_lt_succ h)))

theorem toNat_toUInt8 (h : c.toNat < 128) : c.toUInt8.toNat = c.toNat :=
  Nat.mod_eq_of_lt (Nat.lt_trans h (by decide))

/-- Every byte of a character outside of ASCII has its highest bit set. -/
theorem le_toNat_of_mem_utf8EncodeChar (h : 128 ≤ c.toNat) (hb : b ∈ String.utf8EncodeChar c) :
    128 ≤ b.toNat := by
  have hval : c.val.toNat = c.toNat := rfl
  unfold String.utf8EncodeChar at hb
  simp only [hval] at hb
  split at hb
  · omega
  · split at hb
    · rcases List.mem_pair.1 hb with rfl | rfl <;> simp only [UInt8.toNat_ofNat'] <;> omega
    · split at hb <;> simp only [List.mem_cons, List.not_mem_nil, or_false] at hb
      · rcases hb with rfl | rfl | rfl <;> simp only [UInt8.toNat_ofNat'] <;> omega
      · rcases hb with rfl | rfl | rfl | rfl <;> simp only [UInt8.toNat_ofNat'] <;> omega

/-- The byte of a character of ASCII belongs to no other character. -/
theorem eq_of_toUInt8_mem {d : Char} (hc : c.toNat < 128)
    (h : c.toUInt8 ∈ String.utf8EncodeChar d) : d = c := by
  have hd : d.toNat < 128 := by
    by_contra hd
    have hhigh := le_toNat_of_mem_utf8EncodeChar (Nat.le_of_not_lt hd) h
    rw [toNat_toUInt8 hc] at hhigh
    omega
  rw [utf8EncodeChar_of_lt hd, List.mem_singleton] at h
  have hnat := congrArg UInt8.toNat h
  rw [toNat_toUInt8 hc, toNat_toUInt8 hd] at hnat
  rw [← Char.ofNat_toNat c, ← Char.ofNat_toNat d, hnat]

/-- A character of ASCII can be counted byte by byte. -/
theorem count_bytes (hc : c.toNat < 128) (cs : List Char) :
    (bytes cs).count c.toUInt8 = cs.count c := by
  induction cs with
  | nil => rfl
  | cons d cs ih =>
    rw [bytes_cons, List.count_append, ih, List.count_cons, Nat.add_comm]
    by_cases hd : d = c
    · simp [hd, utf8EncodeChar_of_lt hc]
    · have hnone : c.toUInt8 ∉ String.utf8EncodeChar d := fun h => hd (eq_of_toUInt8_mem hc h)
      simp [hd, List.count_eq_zero_of_not_mem hnone]

/-! ### The ends of a text -/

section Ends

variable {p : Char → Bool} {q : UInt8 → Bool}

/-- The first character passes a test if its first byte passes one that all its bytes agree on. -/
theorem all_head?_bytes (h : ∀ c, ∀ b ∈ String.utf8EncodeChar c, q b = p c) (cs : List Char) :
    (bytes cs).head?.all q = cs.head?.all p := by
  cases cs with
  | nil => rfl
  | cons c cs =>
    obtain ⟨b, bs, hc⟩ := List.exists_cons_of_ne_nil (String.utf8EncodeChar_ne_nil (c := c))
    have hb : q b = p c := h c b (hc ▸ List.mem_cons_self)
    simp [hc, hb]

theorem all_getLast?_bytes (h : ∀ c, ∀ b ∈ String.utf8EncodeChar c, q b = p c) (cs : List Char) :
    (bytes cs).getLast?.all q = cs.getLast?.all p := by
  rcases List.eq_nil_or_concat cs with rfl | ⟨cs, c, rfl⟩
  · rfl
  · have hlast := List.getLast?_eq_some_getLast (String.utf8EncodeChar_ne_nil (c := c))
    have hb := h c _ (List.mem_of_getLast? hlast)
    rw [List.concat_eq_append, bytes_append, bytes_cons, bytes_nil, List.append_nil,
      List.getLast?_append, hlast, List.getLast?_concat]
    simpa using hb

end Ends

end ApiHeaders.Text
