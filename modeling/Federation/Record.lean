/-!
Records over a list of names: one value for each name. A patch gives new values to some of them;
the difference of two records is the least patch that leads from one to the other.
-/
namespace Federation

abbrev Record {ι : Type} (V : ι → Type) (is : List ι) : Type := (i : ι) → i ∈ is → V i

/-- New values for some names. -/
abbrev Patch {ι : Type} (V : ι → Type) (is : List ι) : Type := Record (fun i => Option (V i)) is

namespace Record

variable {ι : Type} {V W : ι → Type} {is js : List ι}

/-- A record with one more name in front. -/
def cons [DecidableEq ι] {i : ι} (v : V i) (r : Record V is) : Record V (i :: is) := fun j h =>
  if e : i = j then e ▸ v
  else r j ((List.mem_cons.1 h).resolve_left fun e' => e e'.symm)

/-- The record of what a partial function gives for each name. -/
def ofFunction [DecidableEq ι] (f : (i : ι) → Except ε (V i)) :
    (is : List ι) → Except ε (Record V is)
  | [] => .ok fun _ h => nomatch h
  | i :: is => do
    let v ← f i
    let r ← ofFunction f is
    return cons v r

def append [DecidableEq ι] (r : Record V is) (s : Record V js) : Record V (is ++ js) := fun i h =>
  if e : i ∈ is then r i e else s i ((List.mem_append.1 h).resolve_left e)

/-- The record's values for some of its names. -/
def restrict (h : ∀ i ∈ js, i ∈ is) (r : Record V is) : Record V js := fun i hi => r i (h i hi)

def map (f : (i : ι) → V i → W i) (r : Record V is) : Record W is := fun i h => f i (r i h)

def patch (r : Record V is) (p : Patch V is) : Record V is := fun i h => (p i h).getD (r i h)

def diff [∀ i, DecidableEq (V i)] (r desired : Record V is) : Patch V is := fun i h =>
  if r i h = desired i h then none else some (desired i h)

/-- The record with another value for one name. -/
def set [DecidableEq ι] (r : Record V is) (i : ι) (v : V i) : Record V is := fun j h =>
  if e : i = j then e ▸ v else r j h

/-- The values in the order of the names. -/
def toList (f : (i : ι) → V i → α) (r : Record V is) : List α :=
  is.attach.map fun i => f i.1 (r i.1 i.2)

/-- Like `toList`, where a value may be impossible to give. -/
def toListM (f : (i : ι) → V i → Except ε α) (r : Record V is) : Except ε (List α) :=
  is.attach.mapM fun i => f i.1 (r i.1 i.2)

theorem ofFunction_eq_ok [DecidableEq ι] {f : (i : ι) → Except ε (V i)} (r : Record V is)
    (h : ∀ i hi, f i = .ok (r i hi)) : ofFunction f is = .ok r := by
  induction is with
  | nil =>
    simp only [ofFunction, Except.ok.injEq]
    funext i hi
    nomatch hi
  | cons i is ih =>
    rw [ofFunction, h i List.mem_cons_self, ih (fun j hj => r j (List.mem_cons_of_mem _ hj))
      fun j hj => h j _]
    simp only [bind, Except.bind, pure, Except.pure, Except.ok.injEq]
    funext j hj
    by_cases e : i = j
    · subst e
      simp [cons]
    · simp [cons, e]

theorem patch_diff [∀ i, DecidableEq (V i)] (r desired : Record V is) :
    r.patch (r.diff desired) = desired := by
  funext i h
  by_cases e : r i h = desired i h <;> simp [patch, diff, e]

theorem diff_eq_none_iff [∀ i, DecidableEq (V i)] (r desired : Record V is) (i : ι) (h : i ∈ is) :
    r.diff desired i h = none ↔ r i h = desired i h := by
  by_cases e : r i h = desired i h <;> simp [diff, e]

end Record

namespace Patch

variable {ι : Type} {V : ι → Type} {is : List ι}

def empty : Patch V is := fun _ _ => none

/-- The patch with another value given. -/
def give [DecidableEq ι] (p : Patch V is) (i : ι) (v : V i) : Patch V is := Record.set p i (some v)

/-- Like `give`, where there is a value. -/
def giveSome [DecidableEq ι] (p : Patch V is) (i : ι) : Option (V i) → Patch V is
  | some v => p.give i v
  | none => p

/-- Does the patch leave every record as it is? -/
def isZero (p : Patch V is) : Bool := is.attach.all fun i => (p i.1 i.2).isNone

/-- The values given, in the order of the names. -/
def toList (f : (i : ι) → V i → α) (p : Patch V is) : List α :=
  is.attach.filterMap fun i => (p i.1 i.2).map (f i.1)

/-- Like `toList`, where a value may be impossible to give. -/
def toListM (f : (i : ι) → V i → Except ε α) (p : Patch V is) : Except ε (List α) :=
  (p.toList f).mapM id

theorem isZero_iff (p : Patch V is) : p.isZero = true ↔ p = empty := by
  constructor
  · intro h
    funext i hi
    simpa [empty] using List.all_eq_true.1 h ⟨i, hi⟩ (List.mem_attach _ _)
  · rintro rfl
    simp [isZero, empty]

end Patch
end Federation
