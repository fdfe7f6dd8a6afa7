import Citeproc.Output
import Mathlib.Tactic.Common

/-!
The reference-matching automaton (`disamb/finite_automata.rs`, outside src), and walks in
a graph extended only by edges into fresh nodes.
-/
namespace Citeproc

inductive NfaEdge where
  | epsilon
  | token (edge : Edge)
  deriving DecidableEq, Repr

/-- Modelled from the spec: "Directed graph with node set N, set of start nodes S ⊆ N,
set of accepting nodes A ⊆ N, and edges labeled either Epsilon or `Token(Edge)`." The
nodes are `0, …, nodeCount - 1`, as petgraph numbers them. -/
structure Nfa where
  nodeCount : Nat
  edges : List (Nat × Nat × NfaEdge)
  start : List Nat
  accepting : List Nat
  deriving DecidableEq, Repr

namespace Nfa

def new : Nfa := ⟨0, [], [], []⟩

def addNode (nfa : Nfa) : Nat × Nfa :=
  (nfa.nodeCount, { nfa with nodeCount := nfa.nodeCount + 1 })

/-- petgraph's `add_edge`, which panics unless both ends are nodes; every call in the
core joins nodes that exist. -/
def addEdge (nfa : Nfa) (a b : Nat) (weight : NfaEdge) : Nfa :=
  { nfa with edges := nfa.edges ++ [(a, b, weight)] }

def insertStart (nfa : Nfa) (node : Nat) : Nfa :=
  { nfa with start := nfa.start.insert node }

def insertAccepting (nfa : Nfa) (node : Nat) : Nfa :=
  { nfa with accepting := nfa.accepting.insert node }

/-- `Path nfa a b w`: a walk from `a` to `b` whose token edges spell `w`. -/
inductive Path (nfa : Nfa) : Nat → Nat → List Edge → Prop where
  | refl (a : Nat) : Path nfa a a []
  | epsilon {a b c : Nat} {w : List Edge} :
      (a, b, .epsilon) ∈ nfa.edges → Path nfa b c w → Path nfa a c w
  | token {a b c : Nat} {e : Edge} {w : List Edge} :
      (a, b, .token e) ∈ nfa.edges → Path nfa b c w → Path nfa a c (e :: w)

/-- What every automaton the builders produce satisfies: edges join existing nodes,
and no walk comes back to where it started having read a token. -/
structure Invariant (nfa : Nfa) : Prop where
  edges_lt : ∀ a b l, (a, b, l) ∈ nfa.edges → a < nfa.nodeCount ∧ b < nfa.nodeCount
  noTokenCycle : ∀ a w, nfa.Path a a w → w = []

theorem invariant_new : new.Invariant :=
  ⟨fun _ _ _ h => by simp [new] at h, fun a w h => by
    cases h with
    | refl => rfl
    | epsilon h _ => simp [new] at h
    | token h _ => simp [new] at h⟩

theorem Path.mono {nfa nfa' : Nfa} (sub : nfa.edges ⊆ nfa'.edges) {a b : Nat}
    {w : List Edge} (p : nfa.Path a b w) : nfa'.Path a b w := by
  induction p with
  | refl a => exact .refl a
  | epsilon h _ ih => exact .epsilon (sub h) ih
  | token h _ ih => exact .token (sub h) ih

theorem Invariant.addNode {nfa : Nfa} (inv : nfa.Invariant) : (Nfa.addNode nfa).2.Invariant where
  edges_lt a b l h := by
    have := inv.edges_lt a b l h
    simp only [Nfa.addNode]; omega
  noTokenCycle a w p := inv.noTokenCycle a w (@Path.mono (Nfa.addNode nfa).2 nfa (List.Subset.refl _) _ _ _ p)

theorem Path.source_lt {nfa : Nfa} (inv : nfa.Invariant) {a b : Nat} {w : List Edge}
    (p : nfa.Path a b w) (hb : b < nfa.nodeCount) : a < nfa.nodeCount := by
  cases p with
  | refl => exact hb
  | epsilon h _ => exact (inv.edges_lt _ _ _ h).1
  | token h _ => exact (inv.edges_lt _ _ _ h).1

end Nfa

section Extension

def IsAlternative (spot t : Nat) (labels : Edge → Prop) : Nat × Nat × NfaEdge → Prop
  | (a, c, .token e) => a = spot ∧ t < c ∧ labels e
  | (a, c, .epsilon) => t < a ∧ c = t

variable {nfa nfa' : Nfa} {spot : Nat} {labels : Edge → Prop} {extra : List (Nat × Nat × NfaEdge)}

/-- `nfa'` is `nfa` with a gadget at `spot` whose frontier is the first fresh node. -/
structure Extends (nfa nfa' : Nfa) (spot : Nat) (labels : Edge → Prop)
    (extra : List (Nat × Nat × NfaEdge)) : Prop where
  edges : nfa'.edges = nfa.edges ++ extra
  alternative : ∀ x ∈ extra, IsAlternative spot nfa.nodeCount labels x
  inv : nfa.Invariant
  spot_lt : spot < nfa.nodeCount

theorem Extends.cases (ext : Extends nfa nfa' spot labels extra) {a c : Nat} {l : NfaEdge}
    (h : (a, c, l) ∈ nfa'.edges) :
    (a, c, l) ∈ nfa.edges ∨ IsAlternative spot nfa.nodeCount labels (a, c, l) := by
  rw [ext.edges, List.mem_append] at h
  exact h.imp id (ext.alternative _)

theorem Extends.fresh_path (ext : Extends nfa nfa' spot labels extra) {c b : Nat}
    {w : List Edge} (p : nfa'.Path c b w) (hc : nfa.nodeCount ≤ c) :
    w = [] ∧ nfa.nodeCount ≤ b := by
  induction p with
  | refl => exact ⟨rfl, hc⟩
  | @epsilon a c' _ _ h _ ih =>
    rcases ext.cases h with old | ⟨-, rfl⟩
    · exact absurd (ext.inv.edges_lt _ _ _ old).1 (by omega)
    · exact ih le_rfl
  | token h _ _ =>
    rcases ext.cases h with old | ⟨rfl, -⟩
    · exact absurd (ext.inv.edges_lt _ _ _ old).1 (by omega)
    · exact absurd ext.spot_lt (by omega)

theorem Extends.old_path (ext : Extends nfa nfa' spot labels extra) {a b : Nat}
    {w : List Edge} (p : nfa'.Path a b w) (hb : b < nfa.nodeCount) : nfa.Path a b w := by
  induction p with
  | refl => exact .refl _
  | @epsilon a c _ _ h q ih =>
    have old := ih hb
    rcases ext.cases h with h | ⟨-, hc⟩
    · exact .epsilon h old
    · exact absurd (ext.fresh_path q (by omega)).2 (by omega)
  | @token a c _ _ _ h q ih =>
    have old := ih hb
    rcases ext.cases h with h | ⟨-, hc, -⟩
    · exact .token h old
    · exact absurd (old.source_lt ext.inv hb) (by omega)

theorem Extends.frontier_path (ext : Extends nfa nfa' spot labels extra) {a : Nat}
    {w : List Edge} (p : nfa'.Path a nfa.nodeCount w) (ha : a < nfa.nodeCount) :
    ∃ u e, nfa.Path a spot u ∧ labels e ∧ w = u ++ [e] := by
  generalize ht : nfa.nodeCount = t at p
  induction p with
  | refl => omega
  | @epsilon a c _ _ h q ih =>
    rcases ext.cases h with h | ⟨ha', -⟩
    · obtain ⟨u, e, pu, le, rfl⟩ := ih (ht ▸ (ext.inv.edges_lt _ _ _ h).2) ht
      exact ⟨u, e, .epsilon h pu, le, rfl⟩
    · omega
  | @token a c _ e _ h q ih =>
    rcases ext.cases h with h | ⟨rfl, hc, le⟩
    · obtain ⟨u, e', pu, le, rfl⟩ := ih (ht ▸ (ext.inv.edges_lt _ _ _ h).2) ht
      exact ⟨e :: u, e', .token h pu, le, rfl⟩
    · obtain ⟨rfl, -⟩ := ext.fresh_path q (by omega)
      exact ⟨[], e, .refl _, le, rfl⟩

theorem Extends.invariant (ext : Extends nfa nfa' spot labels extra)
    (lt : ∀ x ∈ extra, x.1 < nfa'.nodeCount ∧ x.2.1 < nfa'.nodeCount)
    (grow : nfa.nodeCount ≤ nfa'.nodeCount) : nfa'.Invariant where
  edges_lt a b l h := by
    rw [ext.edges, List.mem_append] at h
    rcases h with h | h
    · have := ext.inv.edges_lt _ _ _ h; omega
    · exact lt _ h
  noTokenCycle a w p := by
    by_cases ha : a < nfa.nodeCount
    · exact ext.inv.noTokenCycle a w (ext.old_path p ha)
    · exact (ext.fresh_path p (by omega)).1

end Extension

end Citeproc
