import Mathlib.Data.List.Basic
import Mathlib.Tactic.Common

/-!
Expansion passes for one person name: `SingleNameDisambIter` and their closed form.
-/
namespace Citeproc

inductive NameForm where
  | long
  | short
  | count
  deriving DecidableEq, Repr

/-- The fields of csl's name element that only the name renderer reads; an interned id
stands for them. -/
structure NameElRest where
  id : Nat
  deriving DecidableEq, Repr

/-- csl's name element: the fields the disambiguation code reads or edits, and the rest. -/
structure NameEl where
  form : Option NameForm
  initializeGiven : Option Bool
  initializeWith : Option String
  rest : NameElRest
  deriving DecidableEq, Repr

inductive GivenNameDisambiguationRule where
  | allNames
  | allNamesWithInitials
  | primaryName
  | primaryNameWithInitials
  | byCite
  deriving DecidableEq, Repr

inductive SingleNameDisambMethod where
  | none
  | addInitials
  | addInitialsThenGivenName
  deriving DecidableEq, Repr

/-- `is_primary` is whether this is the first name rendered in a names element. -/
def SingleNameDisambMethod.fromRule :
    GivenNameDisambiguationRule → Bool → SingleNameDisambMethod
  | .byCite, _ | .allNames, _ => .addInitialsThenGivenName
  | .allNamesWithInitials, _ => .addInitials
  | .primaryName, true => .addInitialsThenGivenName
  | .primaryNameWithInitials, true => .addInitials
  | _, _ => .none

inductive NameDisambState where
  | original
  | addedInitials
  | addedGivenName
  deriving DecidableEq, Repr

inductive NameDisambPass where
  | withFormLong
  | withInitializeFalse
  deriving DecidableEq, Repr

def NameDisambState.admissible : SingleNameDisambMethod → Bool → NameDisambState → Bool
  | .addInitials, true, .addedGivenName => false
  | .addInitialsThenGivenName, false, .addedInitials => false
  | _, _, _ => true

theorem NameDisambState.admissible_original (m : SingleNameDisambMethod) (b : Bool) :
    NameDisambState.admissible m b .original = true := by
  cases m <;> cases b <;> rfl

structure SingleNameDisambIter where
  method : SingleNameDisambMethod
  initializeWith : Bool
  nameForm : NameForm
  state : NameDisambState
  admissible : NameDisambState.admissible method initializeWith state = true
  deriving DecidableEq

namespace SingleNameDisambIter

def new (method : SingleNameDisambMethod) (nameEl : NameEl) : SingleNameDisambIter where
  method := method
  initializeWith := nameEl.initializeWith.isSome && nameEl.initializeGiven == some true
  nameForm := nameEl.form.getD .long
  state := .original
  admissible := NameDisambState.admissible_original _ _

/-- One call of `Iterator::next`: the pass it yields and the iterator after the call. -/
def next (it : SingleNameDisambIter) : Option NameDisambPass × SingleNameDisambIter :=
  match it with
  | ⟨.none, _, _, _, _⟩ => (none, it)
  | ⟨.addInitials, true, form, .original, _⟩ =>
    if form = .short then (some .withFormLong, ⟨.addInitials, true, form, .addedInitials, rfl⟩)
    else (none, it)
  | ⟨.addInitials, true, _, .addedInitials, _⟩ => (none, it)
  | ⟨.addInitials, false, _, _, _⟩ => (none, it)
  | ⟨.addInitialsThenGivenName, true, .short, .original, _⟩ =>
    (some .withFormLong, ⟨.addInitialsThenGivenName, true, .short, .addedInitials, rfl⟩)
  | ⟨.addInitialsThenGivenName, true, form, .original, _⟩
  | ⟨.addInitialsThenGivenName, true, form, .addedInitials, _⟩ =>
    (some .withInitializeFalse, ⟨.addInitialsThenGivenName, true, form, .addedGivenName, rfl⟩)
  | ⟨.addInitialsThenGivenName, true, _, .addedGivenName, _⟩ => (none, it)
  | ⟨.addInitialsThenGivenName, false, form, .original, _⟩ =>
    let it' : SingleNameDisambIter := ⟨.addInitialsThenGivenName, false, form, .addedGivenName, rfl⟩
    if form = .short then (some .withFormLong, it') else (none, it')
  | ⟨.addInitialsThenGivenName, false, _, .addedGivenName, _⟩ => (none, it)

end SingleNameDisambIter

def NameDisambState.rank : NameDisambState → Nat
  | .original => 0
  | .addedInitials => 1
  | .addedGivenName => 2

theorem NameDisambState.rank_le_two (s : NameDisambState) : s.rank ≤ 2 := by
  cases s <;> decide

namespace SingleNameDisambIter

theorem next_rank_lt {it it' : SingleNameDisambIter} {p : NameDisambPass}
    (h : it.next = (some p, it')) : it.state.rank < it'.state.rank := by
  obtain ⟨method, init, form, state, adm⟩ := it
  cases method <;> cases init <;> cases state <;> cases form <;>
    simp only [next, NameDisambState.admissible, reduceCtorEq, ite_true, ite_false,
      Prod.mk.injEq, false_and] at h adm <;>
    (obtain ⟨-, rfl⟩ := h; simp [NameDisambState.rank])

/-- The passes a `for pass in iter` loop receives. -/
def passes (it : SingleNameDisambIter) : List NameDisambPass :=
  match _h : it.next with
  | (some p, it') => p :: passes it'
  | (none, _) => []
termination_by 2 - it.state.rank
decreasing_by
  have := next_rank_lt _h
  have := NameDisambState.rank_le_two it'.state
  omega

theorem passes_unfold (it : SingleNameDisambIter) :
    it.passes = match it.next with
      | (some p, it') => p :: it'.passes
      | (none, _) => [] := by
  rw [passes]; split <;> simp_all

theorem passes_of_next_some {it it' : SingleNameDisambIter} {p : NameDisambPass}
    (h : it.next = (some p, it')) : it.passes = p :: it'.passes := by
  rw [passes_unfold, h]

theorem passes_of_next_none {it it' : SingleNameDisambIter}
    (h : it.next = (none, it')) : it.passes = [] := by
  rw [passes_unfold, h]

end SingleNameDisambIter

/-- The table of the spec's §4.3: the passes for a method, whether `initialize_with`
is in force, and the name form. -/
def expansionPasses : SingleNameDisambMethod → Bool → NameForm → List NameDisambPass
  | .addInitials, true, .short => [.withFormLong]
  | .addInitialsThenGivenName, true, .short => [.withFormLong, .withInitializeFalse]
  | .addInitialsThenGivenName, true, _ => [.withInitializeFalse]
  | .addInitialsThenGivenName, false, .short => [.withFormLong]
  | _, _, _ => []

theorem passes_new (method : SingleNameDisambMethod) (el : NameEl) :
    (SingleNameDisambIter.new method el).passes =
      expansionPasses method (el.initializeWith.isSome && el.initializeGiven == some true)
        (el.form.getD .long) := by
  generalize hi : (el.initializeWith.isSome && el.initializeGiven == some true) = i
  generalize hf : el.form.getD .long = f
  have hnew : SingleNameDisambIter.new method el = ⟨method, i, f, .original, NameDisambState.admissible_original _ _⟩ := by
    simp [SingleNameDisambIter.new, hi, hf]
  rw [hnew]
  cases method <;> cases i <;> cases f <;>
    simp [SingleNameDisambIter.passes_unfold, SingleNameDisambIter.next, expansionPasses]

end Citeproc
