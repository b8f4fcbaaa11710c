import ApiHeaders.Proofs.Preprocessor

/-!
# How texts are read

Texts that close their own conditionals are read one after the other, independently of what stands
around them.

## Main statements

* `readText_append` reads texts one after the other.
* `readText_of_mem` and `readText_of_not_mem` read a text between the directives of a guard.
-/

namespace ApiHeaders

variable {holds : List String → String → Bool}
variable {load : String → List String → List Place × List String}

theorem readLines_append (xs ys : List (Place × String)) (r : Reader) :
    readLines holds load (xs ++ ys) r =
      ((readLines holds load xs r).1 ++ (readLines holds load ys (readLines holds load xs r).2).1,
        (readLines holds load ys (readLines holds load xs r).2).2) := by
  induction xs generalizing r with
  | nil => rfl
  | cons x xs ih =>
    obtain ⟨place, line⟩ := x
    simp only [List.cons_append, readLines, ih, List.append_assoc]

theorem depthAfter_append (xs ys : List String) (depth : Nat) :
    depthAfter depth (xs ++ ys) = (depthAfter depth xs).bind (depthAfter · ys) := by
  induction xs generalizing depth with
  | nil => rfl
  | cons x xs ih =>
    simp only [List.cons_append, depthAfter]
    cases Directive.depthAfter depth (Directive.of? x) with
    | none => rfl
    | some d => exact ih d

section Step

variable (holds load)

namespace Reader

variable {r : Reader} {inner outer : List Branch} {n : Nat}

/-- A line changes the conditionals inside of which it stands as `depthAfter` counts them. -/
theorem branches_step {line : String} (hr : r.branches = inner ++ outer)
    (h : Directive.depthAfter inner.length (Directive.of? line) = some n) :
    ∃ inner', inner'.length = n ∧ (r.step holds load line).2.branches = inner' ++ outer := by
  have keep {r' : Reader} (hr' : r'.branches = r.branches) (hn : inner.length = n) :
      ∃ inner', inner'.length = n ∧ r'.branches = inner' ++ outer :=
    ⟨inner, hn, hr'.trans hr⟩
  have grow {b : Bool} (hn : inner.length + 1 = n) :
      ∃ inner', inner'.length = n ∧ (r.enter b).branches = inner' ++ outer := by
    refine ⟨(if !r.active then .passed else if b then .taken else .waiting) :: inner, hn, ?_⟩
    simp only [enter, hr, List.cons_append]
  have turn {b : Bool} (h0 : inner.length ≠ 0) (hn : inner.length = n) :
      ∃ inner', inner'.length = n ∧ (r.next b).branches = inner' ++ outer := by
    cases inner with
    | nil => exact absurd rfl h0
    | cons c inner => exact ⟨c.next b :: inner, hn, by simp [next, hr]⟩
  unfold step
  cases hd : Directive.of? line with
  | none => exact keep rfl (by simpa [hd, Directive.depthAfter] using h)
  | some d =>
    rw [hd] at h
    cases d <;>
      simp only [Directive.depthAfter, Option.some.injEq, Option.ite_none_left_eq_some] at h
    case ifDefined | ifNotDefined | ifHolds => exact grow h
    case elseIf | otherwise => exact turn h.1 h.2
    case define | undefine | load =>
      refine keep ?_ h
      simp only [follow]
      split <;> rfl
    case endIf =>
      cases inner with
      | nil => exact absurd rfl h.1
      | cons c inner => exact ⟨inner, by simpa using h.2, by simp [follow, close, hr]⟩

/-- A line that is left out changes nothing but the conditionals. -/
theorem step_of_inactive (h : r.active = false) (line : String) :
    r.step holds load line = ([], ⟨r.macros, (r.step holds load line).2.branches⟩) := by
  unfold step
  cases Directive.of? line with
  | none => rfl
  | some d =>
    cases d with
    | elseIf | otherwise =>
      simp only [follow, next]
      split <;> rfl
    | define | undefine | load => simp [follow, h]
    | ifDefined | ifNotDefined | ifHolds | endIf => rfl

end Reader

/-- Lines inside a conditional that is left out are left out, as long as they open and close
conditionals of their own only. -/
theorem readLines_of_inactive {outer : List Branch} (houter : outer.all (· = .taken) = false)
    (lines : List (Place × String)) {r : Reader} {inner : List Branch} {n : Nat}
    (hr : r.branches = inner ++ outer)
    (h : depthAfter inner.length (lines.map Prod.snd) = some n) :
    ∃ inner', inner'.length = n ∧
      readLines holds load lines r = ([], ⟨r.macros, inner' ++ outer⟩) := by
  induction lines generalizing r inner with
  | nil =>
    refine ⟨inner, by simpa [depthAfter] using h, ?_⟩
    rw [readLines, ← hr]
  | cons x lines ih =>
    obtain ⟨place, line⟩ := x
    have hactive : r.active = false := by
      rw [Reader.active, hr, List.all_append, houter, Bool.and_false]
    rw [List.map_cons, depthAfter, Option.bind_eq_some_iff] at h
    obtain ⟨d, hd, hrest⟩ := h
    obtain ⟨inner', hlen, hstep⟩ := Reader.branches_step holds load hr hd
    subst hlen
    obtain ⟨inner'', hlen', hlines⟩ := ih hstep hrest
    refine ⟨inner'', hlen', ?_⟩
    have hsame := Reader.step_of_inactive holds load hactive line
    rw [readLines, hlines, hactive]
    rw [hsame]
    rfl

/-- The conditionals that a line stands in make no difference to it if their taken branches are
read, as long as it does not belong to one of them. -/
theorem Reader.step_append {outer : List Branch} (houter : outer.all (· = .taken) = true)
    (r : Reader) (line : String)
    (h : (Directive.depthAfter r.branches.length (Directive.of? line)).isSome) :
    Reader.step holds load ⟨r.macros, r.branches ++ outer⟩ line =
      ((r.step holds load line).1, ⟨(r.step holds load line).2.macros,
        (r.step holds load line).2.branches ++ outer⟩) := by
  obtain ⟨macros, inner⟩ := r
  have hactive : Reader.active ⟨macros, inner ++ outer⟩ = Reader.active ⟨macros, inner⟩ := by
    simp [active, List.all_append, houter]
  unfold step
  cases hd : Directive.of? line with
  | none => rfl
  | some d =>
    rw [hd] at h
    cases d with
    | ifDefined | ifNotDefined | ifHolds => simp [follow, enter, hactive]
    | elseIf | otherwise | endIf =>
      cases inner with
      | nil => simp [Directive.depthAfter] at h
      | cons b inner => simp [follow, next, close]
    | define | undefine | load =>
      simp only [follow, hactive]
      split <;> rfl

theorem readLines_outer {outer : List Branch} (houter : outer.all (· = .taken) = true)
    (lines : List (Place × String)) (r : Reader)
    (h : (depthAfter r.branches.length (lines.map Prod.snd)).isSome) :
    readLines holds load lines ⟨r.macros, r.branches ++ outer⟩ =
      ((readLines holds load lines r).1, ⟨(readLines holds load lines r).2.macros,
        (readLines holds load lines r).2.branches ++ outer⟩) := by
  induction lines generalizing r with
  | nil => rfl
  | cons x lines ih =>
    obtain ⟨place, line⟩ := x
    rw [List.map_cons, depthAfter] at h
    obtain ⟨d, hd⟩ := Option.isSome_iff_exists.1 (Option.isSome_of_isSome_bind h)
    rw [hd, Option.bind_some] at h
    obtain ⟨inner, hlen, hstep⟩ :=
      Reader.branches_step holds load (List.append_nil r.branches).symm hd
    rw [List.append_nil] at hstep
    have hactive : Reader.active ⟨r.macros, r.branches ++ outer⟩ = r.active := by
      simp [Reader.active, List.all_append, houter]
    have hfirst := Reader.step_append holds load houter r line (by simp [hd])
    have hrest := ih (r.step holds load line).2 (by rw [hstep, hlen]; exact h)
    simp only [readLines, hfirst, hrest, hactive]

/-- A nested text leaves no conditional open. -/
theorem branches_readLines {lines : List (Place × String)} (r : Reader) {n : Nat}
    (h : depthAfter r.branches.length (lines.map Prod.snd) = some n) :
    (readLines holds load lines r).2.branches.length = n := by
  induction lines generalizing r with
  | nil => exact Option.some.inj h
  | cons x lines ih =>
    obtain ⟨place, line⟩ := x
    rw [List.map_cons, depthAfter, Option.bind_eq_some_iff] at h
    obtain ⟨d, hd, hrest⟩ := h
    obtain ⟨inner, hlen, hstep⟩ :=
      Reader.branches_step holds load (List.append_nil r.branches).symm hd
    rw [List.append_nil] at hstep
    apply ih
    rw [hstep, hlen]
    exact hrest

/-- A nested text inside of conditionals whose taken branches are read. -/
theorem readLines_nested {outer : List Branch} (houter : outer.all (· = .taken) = true)
    {lines : List (Place × String)} (h : Nested (lines.map Prod.snd)) (macros : List String) :
    readLines holds load lines ⟨macros, outer⟩ =
      ((readText holds load lines macros).1, ⟨(readText holds load lines macros).2, outer⟩) := by
  have hr := readLines_outer holds load houter lines ⟨macros, []⟩ (Option.isSome_of_eq_some h)
  have hclosed := branches_readLines holds load ⟨macros, []⟩ h
  rw [List.length_eq_zero_iff] at hclosed
  rw [hclosed] at hr
  exact hr

end Step

theorem readFile_of_some {directory : String → Option String} {depth : Nat}
    {file text : String} {macros : List String} (h : directory file = some text) :
    readFile holds directory (depth + 1) file macros =
      readText holds (readFile holds directory depth) (numbered file 0 (Text.pieces '\n' text))
        macros := by
  rw [readFile, h]

/-- Texts are read one after the other. -/
theorem readText_append {xs ys : List (Place × String)} (h : Nested (xs.map Prod.snd))
    (macros : List String) :
    readText holds load (xs ++ ys) macros =
      ((readText holds load xs macros).1
          ++ (readText holds load ys (readText holds load xs macros).2).1,
        (readText holds load ys (readText holds load xs macros).2).2) := by
  rw [readText, readLines_append, readLines_nested holds load List.all_nil h]
  rfl

section Guard

variable {first last : Place} {guard opening closing : String} {lines : List (Place × String)}
  {macros : List String}

/-- A text whose guard is defined is left out. -/
theorem readText_of_mem (hopen : Directive.of? opening = some (.ifNotDefined guard))
    (hclose : Directive.of? closing = some .endIf) (h : Nested (lines.map Prod.snd))
    (hguard : guard ∈ macros) :
    readText holds load ((first, opening) :: (lines ++ [(last, closing)])) macros =
      ([first], macros) := by
  have hskip : readLines holds load lines ⟨macros, [.waiting]⟩ = ([], ⟨macros, [.waiting]⟩) := by
    have hinner : (⟨macros, [.waiting]⟩ : Reader).branches = [] ++ [.waiting] := rfl
    obtain ⟨inner, hlen, hread⟩ := readLines_of_inactive holds load rfl lines hinner h
    rw [List.length_eq_zero_iff.1 hlen] at hread
    exact hread
  simp [readText, readLines, readLines_append, Reader.step, hopen, hclose, Reader.follow,
    Reader.enter, Reader.active, hguard, hskip, Reader.close]

/-- A text whose guard is not defined is read inside of it. -/
theorem readText_of_not_mem (hopen : Directive.of? opening = some (.ifNotDefined guard))
    (hclose : Directive.of? closing = some .endIf) (h : Nested (lines.map Prod.snd))
    (hguard : guard ∉ macros) :
    readText holds load ((first, opening) :: (lines ++ [(last, closing)])) macros =
      (first :: (readText holds load lines macros).1 ++ [last],
        (readText holds load lines macros).2) := by
  have htaken : [Branch.taken].all (· = .taken) = true := rfl
  have hread := readLines_nested holds load htaken h macros
  simp [readText, readLines, readLines_append, Reader.step, hopen, hclose, Reader.follow,
    Reader.enter, Reader.active, hguard, hread, Reader.close]

end Guard

end ApiHeaders
