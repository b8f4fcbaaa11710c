import ApiHeaders.Proofs.Fence

/-!
# Guards that are closed

A header is put together from directives that open and close guards and from lines in between. Its
guards nest: each is closed by a directive of its own, and what stands between the two closes the
guards that it opens.

## Main definitions

* `Part` is a directive of a guard, or lines of another kind; `guarded` puts parts into a guard.
* `Matched` says that guards nest.

## Main statements

* `Matched.nested` says that such parts close the conditionals that they open.
-/

namespace ApiHeaders

/-- A part of a header. -/
inductive Part where
  | opens (guard : String)
  | closes (guard : String)
  | text (lines : List String)
  deriving DecidableEq, Repr

/-- The lines of a part, as they stand in the file. -/
def Part.lines : Part → List String
  | opens guard => ["#ifndef " ++ guard]
  | closes guard => ["#endif /* " ++ guard ++ " */"]
  | text lines => lines

/-- Parts between the directives of a guard, with an empty line after it. -/
def guarded (guard : String) (parts : List Part) : List Part :=
  .opens guard :: (parts ++ [.closes guard, .text [""]])

theorem lines_guarded (guard : String) (parts : List Part) :
    (guarded guard parts).flatMap Part.lines =
      fence guard (parts.flatMap Part.lines) ++ [""] := by
  simp [guarded, fence, Part.lines]

/-- Each guard that is opened is closed by a directive of its own, with such parts in between. The
other lines close the conditionals that they open. -/
inductive Matched : List Part → Prop
  | nil : Matched []
  | text {lines : List String} {parts : List Part} (nested : Nested lines) (rest : Matched parts) :
      Matched (.text lines :: parts)
  | fence (guard : String) {parts parts' : List Part} (inner : Matched parts)
      (rest : Matched parts') : Matched (.opens guard :: (parts ++ .closes guard :: parts'))

namespace Matched

variable {parts parts' : List Part} {guard : String} {lines : List String}

theorem append (h : Matched parts) (h' : Matched parts') : Matched (parts ++ parts') := by
  induction h with
  | nil => exact h'
  | text nested _ ih => exact .text nested ih
  | fence guard inner _ _ ih =>
    rw [List.cons_append, List.append_assoc]
    exact .fence guard inner ih

theorem single (h : Nested lines) : Matched [.text lines] := .text h .nil

theorem flatMap {α : Type} {f : α → List Part} {as : List α} (h : ∀ a ∈ as, Matched (f a)) :
    Matched (as.flatMap f) := by
  induction as with
  | nil => exact .nil
  | cons a as ih =>
    rw [List.flatMap_cons]
    exact (h a List.mem_cons_self).append (ih fun b hb => h b (List.mem_cons_of_mem _ hb))

/-- More may follow right after a guard is opened. -/
theorem insert (h : Matched (.opens guard :: parts')) (hparts : Matched parts) :
    Matched (.opens guard :: (parts ++ parts')) := by
  cases h with
  | fence _ inner rest =>
    rw [← List.append_assoc]
    exact .fence guard (hparts.append inner) rest

theorem guarded (guard : String) (h : Matched parts) : Matched (guarded guard parts) :=
  .fence guard h (.single rfl)

theorem nested (h : Matched parts) : Nested (parts.flatMap Part.lines) := by
  induction h with
  | nil => rfl
  | text nested _ ih => exact nested.append ih
  | fence guard _ _ ihinner ihrest =>
    have hfence := (nested_fence guard ihinner).append ihrest
    simpa [Part.lines, ApiHeaders.fence] using hfence

end Matched

end ApiHeaders
