import ApiHeaders.Proofs.Reading

/-!
# Harmless lines

Harmless lines change none of the macros that somebody relies on. Clear ones leave nothing out
either.

## Main definitions

* `Keeps` says that reading changes none of some macros and reaches no hidden place.
* `isHarmless`, `isPlain` and `isClear` are conditions on single lines.

## Main statements

* `keeps_readText` says what harmless lines do, `mem_readText` that clear ones are reached.
-/

namespace ApiHeaders

variable {holds : List String → String → Bool}
variable {load : String → List String → List Place × List String}
variable {kept files : List String} {hidden : Place → Prop} {macros : List String}

/-- Two lists of macros agree on some names. -/
def SameOn (kept macros macros' : List String) : Prop := ∀ m ∈ kept, m ∈ macros' ↔ m ∈ macros

/-- Something was read without a change to the macros in `kept`, and without reaching a hidden
place. -/
structure Keeps (kept : List String) (hidden : Place → Prop) (macros : List String)
    (x : List Place × List String) : Prop where
  same : SameOn kept macros x.2
  hides : ∀ place ∈ x.1, ¬hidden place

theorem Keeps.nil (kept macros : List String) (hidden : Place → Prop) :
    Keeps kept hidden macros ([], macros) :=
  ⟨fun _ _ => Iff.rfl, List.forall_mem_nil _⟩

theorem Keeps.append {x y : List Place × List String} (hx : Keeps kept hidden macros x)
    (hy : Keeps kept hidden x.2 y) : Keeps kept hidden macros (x.1 ++ y.1, y.2) := by
  refine ⟨fun m hm => (hy.same m hm).trans (hx.same m hm), ?_⟩
  intro place hplace
  rcases List.mem_append.1 hplace with hplace | hplace
  · exact hx.hides place hplace
  · exact hy.hides place hplace

theorem Keeps.append_left {kept more macros : List String} {hidden : Place → Prop}
    {x y : List Place × List String} (hx : Keeps kept hidden macros x)
    (hy : Keeps kept hidden (more ++ x.2) y) :
    Keeps kept hidden (more ++ macros) (x.1 ++ y.1, y.2) := by
  refine ⟨?_, ?_⟩
  · intro m hm
    rw [hy.same m hm, List.mem_append, List.mem_append, hx.same m hm]
  · intro place hplace
    rcases List.mem_append.1 hplace with hplace | hplace
    · exact hx.hides place hplace
    · exact hy.hides place hplace

theorem Keeps.single {kept macros : List String} {hidden : Place → Prop} {place : Place}
    (h : ¬hidden place) : Keeps kept hidden macros ([place], macros) :=
  ⟨fun _ _ => Iff.rfl, fun _ hp => List.mem_singleton.1 hp ▸ h⟩

theorem SameOn.mono {kept kept' macros macros' : List String} (h : SameOn kept' macros macros')
    (hsub : kept ⊆ kept') : SameOn kept macros macros' :=
  fun m hm => h m (hsub hm)

theorem Keeps.mono {kept kept' macros : List String} {hidden : Place → Prop}
    {x : List Place × List String} (h : Keeps kept' hidden macros x) (hsub : kept ⊆ kept') :
    Keeps kept hidden macros x :=
  ⟨h.same.mono hsub, h.hides⟩

/-- Wherever the macros agree with some given ones, reading one of some files keeps them. -/
def Calm (kept files : List String) (hidden : Place → Prop)
    (load : String → List String → List Place × List String) (macros : List String) : Prop :=
  ∀ file ∈ files, ∀ macros', SameOn kept macros macros' →
    Keeps kept hidden macros' (load file macros')

theorem Calm.of_same {macros' : List String} (h : Calm kept files hidden load macros)
    (hsame : SameOn kept macros macros') : Calm kept files hidden load macros' :=
  fun file hfile macros'' hsame' =>
    h file hfile macros'' fun m hm => (hsame' m hm).trans (hsame m hm)

theorem calm_nil (kept : List String) (hidden : Place → Prop) (macros : List String) :
    Calm kept [] hidden load macros :=
  List.forall_mem_nil _

/-- Whether a directive leaves the macros in `kept` alone and includes nothing but `files`. -/
def Directive.isHarmless (kept files : List String) : Directive → Bool
  | .define m | .undefine m => m ∉ kept
  | .load file => file ∈ files
  | _ => true

/-- Whether a directive is harmless and no part of a conditional. -/
def Directive.isPlain (kept files : List String) : Directive → Bool
  | .define m | .undefine m => m ∉ kept
  | .load file => file ∈ files
  | _ => false

/-- Whether a directive is harmless and leaves nothing out: its conditionals are tests for macros in
`absent`, which are not defined. -/
def Directive.isClear (absent kept files : List String) : Directive → Bool
  | .ifNotDefined m => m ∈ absent
  | .endIf => true
  | d => d.isPlain kept files

def isHarmless (kept files : List String) (line : String) : Bool :=
  (Directive.of? line).all (·.isHarmless kept files)

def isPlain (kept files : List String) (line : String) : Bool :=
  (Directive.of? line).all (·.isPlain kept files)

def isClear (absent kept files : List String) (line : String) : Bool :=
  (Directive.of? line).all (·.isClear absent kept files)

theorem isClear_of_isPlain {absent : List String} {line : String} (h : isPlain kept files line) :
    isClear absent kept files line := by
  unfold isClear
  unfold isPlain at h
  cases hd : Directive.of? line with
  | none => rfl
  | some d =>
    rw [hd, Option.all_some] at h
    rw [Option.all_some]
    cases d <;> first | exact h | cases h

theorem Directive.isHarmless_of_isClear {absent : List String} {d : Directive}
    (h : d.isClear absent kept files) : d.isHarmless kept files := by
  cases d <;> first | rfl | exact h

theorem isHarmless_of_isClear {absent : List String} {line : String}
    (h : isClear absent kept files line) : isHarmless kept files line := by
  unfold isHarmless
  unfold isClear at h
  cases hd : Directive.of? line with
  | none => rfl
  | some d =>
    rw [hd] at h
    exact Directive.isHarmless_of_isClear h

theorem isHarmless_mono {kept kept' files files' : List String} (hkept : kept ⊆ kept')
    (hfiles : files ⊆ files') {line : String} (h : isHarmless kept' files line) :
    isHarmless kept files' line := by
  unfold isHarmless at h ⊢
  cases hd : Directive.of? line with
  | none => rfl
  | some d =>
    rw [hd] at h
    simp only [Option.all_some] at h ⊢
    cases d with
    | ifDefined | ifNotDefined | ifHolds | elseIf | otherwise | endIf => rfl
    | define | undefine =>
      simp only [Directive.isHarmless, decide_eq_true_eq] at h ⊢
      exact fun hm => h (hkept hm)
    | load =>
      simp only [Directive.isHarmless, decide_eq_true_eq] at h ⊢
      exact hfiles h

theorem sameOn_of_mem_iff {macros' : List String} {m : String} (hm : m ∉ kept)
    (h : ∀ n, n ≠ m → (n ∈ macros' ↔ n ∈ macros)) : SameOn kept macros macros' :=
  fun n hn => h n fun heq => hm (heq ▸ hn)

theorem Reader.keeps_follow {r : Reader} (hcalm : Calm kept files hidden load r.macros)
    {d : Directive} (h : d.isHarmless kept files) :
    Keeps kept hidden r.macros
      ((r.follow holds load d).1, (r.follow holds load d).2.macros) := by
  cases d with
  | ifDefined | ifNotDefined | ifHolds | endIf => exact .nil ..
  | elseIf | otherwise =>
    simp only [follow, next]
    split <;> exact .nil ..
  | define m =>
    have hm : m ∉ kept := by simpa [Directive.isHarmless] using h
    simp only [follow]
    split
    · exact ⟨sameOn_of_mem_iff hm fun n hn => by simp [hn], List.forall_mem_nil _⟩
    · exact .nil ..
  | undefine m =>
    have hm : m ∉ kept := by simpa [Directive.isHarmless] using h
    simp only [follow]
    split
    · exact ⟨sameOn_of_mem_iff hm fun n hn => by simp [hn], List.forall_mem_nil _⟩
    · exact .nil ..
  | load file =>
    have hfile : file ∈ files := by simpa [Directive.isHarmless] using h
    simp only [follow]
    split
    · exact hcalm file hfile r.macros fun _ _ => Iff.rfl
    · exact .nil ..

theorem Reader.keeps_step (holds : List String → String → Bool) {r : Reader}
    (hcalm : Calm kept files hidden load r.macros) {line : String}
    (h : isHarmless kept files line) :
    Keeps kept hidden r.macros ((r.step holds load line).1, (r.step holds load line).2.macros) := by
  unfold step
  unfold isHarmless at h
  cases hd : Directive.of? line with
  | none => exact .nil ..
  | some d =>
    rw [hd] at h
    exact keeps_follow hcalm h

/-- Harmless lines keep the macros. -/
theorem keeps_readLines (lines : List (Place × String)) (r : Reader)
    (hcalm : Calm kept files hidden load r.macros)
    (hplaces : ∀ x ∈ lines, ¬hidden x.1) (h : ∀ x ∈ lines, isHarmless kept files x.2) :
    Keeps kept hidden r.macros
      ((readLines holds load lines r).1, (readLines holds load lines r).2.macros) := by
  induction lines generalizing r with
  | nil => exact .nil ..
  | cons x lines ih =>
    obtain ⟨place, line⟩ := x
    have hplace : ¬hidden place := hplaces _ List.mem_cons_self
    have hstep := Reader.keeps_step holds hcalm (h _ List.mem_cons_self)
    have hrest := ih (r.step holds load line).2 (hcalm.of_same hstep.same)
      (fun x hx => hplaces x (List.mem_cons_of_mem _ hx))
      (fun x hx => h x (List.mem_cons_of_mem _ hx))
    have hboth := hstep.append hrest
    refine ⟨hboth.same, ?_⟩
    intro p hp
    rw [readLines, List.append_assoc] at hp
    rcases List.mem_append.1 hp with hp | hp
    · have hpe : p = place := by
        split at hp
        · exact List.mem_singleton.1 hp
        · cases hp
      exact hpe ▸ hplace
    · exact hboth.hides p hp

theorem keeps_readText {lines : List (Place × String)}
    (hcalm : Calm kept files hidden load macros) (hplaces : ∀ x ∈ lines, ¬hidden x.1)
    (h : ∀ x ∈ lines, isHarmless kept files x.2) :
    Keeps kept hidden macros (readText holds load lines macros) :=
  keeps_readLines lines ⟨macros, []⟩ hcalm hplaces h

theorem Reader.active_step {absent : List String} {r : Reader} (hactive : r.active)
    (habsent : ∀ m ∈ absent, m ∉ r.macros) {line : String} (h : isClear absent kept files line) :
    (r.step holds load line).2.active := by
  unfold step
  unfold isClear at h
  cases hd : Directive.of? line with
  | none => exact hactive
  | some d =>
    rw [hd] at h
    cases d with
    | ifDefined | ifHolds | elseIf | otherwise => cases h
    | define | undefine | load =>
      simp only [follow]
      split <;> exact hactive
    | ifNotDefined m =>
      have hm : m ∉ r.macros := habsent m (by simpa [Directive.isClear] using h)
      simpa [follow, enter, hactive, active, hm] using hactive
    | endIf =>
      simp only [follow, close, active, List.all_eq_true] at hactive ⊢
      exact fun b hb => hactive b (List.mem_of_mem_tail hb)

/-- Clear lines are all reached. -/
theorem mem_readLines {absent : List String} (hkept : absent ⊆ kept) (lines : List (Place × String))
    (r : Reader) (hcalm : Calm kept files hidden load r.macros)
    (habsent : ∀ m ∈ absent, m ∉ r.macros) (hactive : r.active)
    (h : ∀ x ∈ lines, isClear absent kept files x.2) :
    ∀ x ∈ lines, x.1 ∈ (readLines holds load lines r).1 := by
  induction lines generalizing r with
  | nil => exact List.forall_mem_nil _
  | cons y lines ih =>
    obtain ⟨place, line⟩ := y
    have hclear := h _ List.mem_cons_self
    have hstep := Reader.keeps_step holds hcalm (isHarmless_of_isClear hclear)
    have hnext : (r.step holds load line).2.active :=
      Reader.active_step hactive habsent hclear
    have hrest := ih (r.step holds load line).2 (hcalm.of_same hstep.same)
      (fun m hm hmem => habsent m hm ((hstep.same m (hkept hm)).1 hmem)) hnext
      (fun x hx => h x (List.mem_cons_of_mem _ hx))
    intro x hx
    simp only [readLines, hactive, if_true]
    rcases List.mem_cons.1 hx with rfl | hx
    · simp
    · simp [hrest x hx]

theorem mem_readText {absent : List String} (hkept : absent ⊆ kept)
    {lines : List (Place × String)} (hcalm : Calm kept files hidden load macros)
    (habsent : ∀ m ∈ absent, m ∉ macros) (h : ∀ x ∈ lines, isClear absent kept files x.2)
    {x : Place × String} (hx : x ∈ lines) : x.1 ∈ (readText holds load lines macros).1 :=
  mem_readLines hkept lines ⟨macros, []⟩ hcalm habsent rfl h x hx

end ApiHeaders
