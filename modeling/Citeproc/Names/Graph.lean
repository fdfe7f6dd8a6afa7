import Citeproc.Nfa
import Citeproc.Names.Global

/-!
Splicing a person name's expansions into a cite's automaton (`add_expanded_name_to_graph`).
-/
namespace Citeproc

variable {O : OutputFormat}

/-- Modelled from the spec: `add_to_graph(existing_node, ir_subtree)` "appends a
linearization of an IR subtree to the NFA starting at `existing_node`, producing the
new frontier". The core calls it only on `RefIR::Edge(Some(e))`, whose linearization
is the single token `e`. -/
def addToGraph (nfa : Nfa) (edge : Edge) (spot : Nat) : Nat × Nfa :=
  let (next, nfa) := nfa.addNode
  (next, nfa.addEdge spot next (.token edge))

/-- The `for pass in dn.disamb_iter(rule)` loop of `add_expanded_name_to_graph`. -/
def addAlternatives (db : IrDatabase O) (stack : O.Formatting) (spot nextSpot : Nat) :
    DisambNameData → List NameDisambPass → Nfa → Nfa
  | _, [], nfa => nfa
  | dn, pass :: ps, nfa =>
    let dn := dn.applyPass pass
    let (first, nfa) := nfa.addNode
    let nfa := nfa.insertStart first
    let edge := dn.singleNameEdge db stack
    let (last, nfa) := addToGraph nfa edge spot
    addAlternatives db stack spot nextSpot dn ps (nfa.addEdge last nextSpot .epsilon)

/-- Original + expansions. -/
def addExpandedNameToGraph (db : IrDatabase O) (nfa : Nfa) (dn : DisambNameData)
    (spot : Nat) (stack : O.Formatting) : Nat × Nfa :=
  let rule := db.style.citation.givennameDisambiguationRule
  let edge := dn.singleNameEdge db stack
  let (nextSpot, nfa) := nfa.addNode
  let (last, nfa) := addToGraph nfa edge spot
  let nfa := nfa.addEdge last nextSpot .epsilon
  (nextSpot, addAlternatives db stack spot nextSpot dn (dn.disambIter rule).passes nfa)

theorem IsAlternative.mono {spot t : Nat} {labels labels' : Edge → Prop}
    (sub : ∀ e, labels e → labels' e) :
    ∀ {x}, IsAlternative spot t labels x → IsAlternative spot t labels' x
  | (_, _, .token _), ⟨h1, h2, h3⟩ => ⟨h1, h2, sub _ h3⟩
  | (_, _, .epsilon), h => h

theorem addAlternatives_cons (db : IrDatabase O) (stack : O.Formatting) (spot t : Nat)
    (dn : DisambNameData) (p : NameDisambPass) (ps : List NameDisambPass) (nfa : Nfa) :
    addAlternatives db stack spot t dn (p :: ps) nfa =
      addAlternatives db stack spot t (dn.applyPass p) ps
        { nodeCount := nfa.nodeCount + 2,
          edges := nfa.edges ++ [(spot, nfa.nodeCount + 1,
            .token ((dn.applyPass p).singleNameEdge db stack)), (nfa.nodeCount + 1, t, .epsilon)],
          start := nfa.start.insert nfa.nodeCount, accepting := nfa.accepting } := by
  simp [addAlternatives, addToGraph, Nfa.addNode, Nfa.addEdge, Nfa.insertStart]

theorem addAlternatives_shape (db : IrDatabase O) (stack : O.Formatting) (spot t : Nat)
    (ht : spot < t) :
    ∀ (ps : List NameDisambPass) (dn : DisambNameData) (nfa : Nfa), t < nfa.nodeCount →
      ∃ extra, (addAlternatives db stack spot t dn ps nfa).edges = nfa.edges ++ extra ∧
        nfa.nodeCount ≤ (addAlternatives db stack spot t dn ps nfa).nodeCount ∧
        (∀ x ∈ extra, IsAlternative spot t
            (fun e => ∃ k, 1 ≤ k ∧ k ≤ ps.length ∧ e = (dn.expandedBy ps k).singleNameEdge db stack) x ∧
          x.1 < (addAlternatives db stack spot t dn ps nfa).nodeCount ∧
          x.2.1 < (addAlternatives db stack spot t dn ps nfa).nodeCount) ∧
        ∀ k, 1 ≤ k → k ≤ ps.length → ∃ l,
          (spot, l, .token ((dn.expandedBy ps k).singleNameEdge db stack)) ∈ extra ∧
          (l, t, .epsilon) ∈ extra
  | [], _, nfa, _ =>
    ⟨[], by simp [addAlternatives], le_rfl, by simp, fun k h1 h2 => by simp at h2; omega⟩
  | p :: ps, dn, nfa, hn => by
    rw [addAlternatives_cons]
    obtain ⟨extra, edges, grow, alt, cover⟩ :=
      addAlternatives_shape db stack spot t ht ps (dn.applyPass p)
        { nodeCount := nfa.nodeCount + 2,
          edges := nfa.edges ++ [(spot, nfa.nodeCount + 1,
            .token ((dn.applyPass p).singleNameEdge db stack)), (nfa.nodeCount + 1, t, .epsilon)],
          start := nfa.start.insert nfa.nodeCount, accepting := nfa.accepting } (by simp only; omega)
    simp only at grow
    refine ⟨(spot, nfa.nodeCount + 1, .token ((dn.applyPass p).singleNameEdge db stack)) ::
      (nfa.nodeCount + 1, t, .epsilon) :: extra, by simp [edges], by omega, ?_, ?_⟩
    · rintro x (_ | ⟨_, _ | ⟨_, hx⟩⟩)
      · exact ⟨⟨rfl, by omega, 1, le_rfl, by simp, rfl⟩, by dsimp only; omega, by dsimp only; omega⟩
      · exact ⟨⟨by omega, rfl⟩, by dsimp only; omega, by dsimp only; omega⟩
      · obtain ⟨a, lt⟩ := alt x hx
        exact ⟨a.mono fun e ⟨k, h1, h2, he⟩ => ⟨k + 1, by omega, by simpa using h2, he⟩, lt⟩
    · rintro (_ | _ | k) h1 h2
      · omega
      · exact ⟨nfa.nodeCount + 1, by simp, by simp⟩
      · obtain ⟨l, hl, hl'⟩ := cover (k + 1) (by omega) (by simpa using h2)
        exact ⟨l, by simp [hl], by simp [hl']⟩

theorem addExpandedNameToGraph_eq (db : IrDatabase O) (nfa : Nfa) (dn : DisambNameData)
    (spot : Nat) (stack : O.Formatting) :
    addExpandedNameToGraph db nfa dn spot stack =
      (nfa.nodeCount, addAlternatives db stack spot nfa.nodeCount dn
        (dn.disambIter db.style.citation.givennameDisambiguationRule).passes
        { nodeCount := nfa.nodeCount + 2,
          edges := nfa.edges ++ [(spot, nfa.nodeCount + 1, .token (dn.singleNameEdge db stack)),
            (nfa.nodeCount + 1, nfa.nodeCount, .epsilon)],
          start := nfa.start, accepting := nfa.accepting }) := by
  simp [addExpandedNameToGraph, addToGraph, Nfa.addNode, Nfa.addEdge]

theorem addExpandedNameToGraph_extends (db : IrDatabase O) (nfa : Nfa) (dn : DisambNameData)
    (spot : Nat) (stack : O.Formatting) (inv : nfa.Invariant) (hspot : spot < nfa.nodeCount) :
    let ps := (dn.disambIter db.style.citation.givennameDisambiguationRule).passes
    let nfa' := (addExpandedNameToGraph db nfa dn spot stack).2
    ∃ extra, Extends nfa nfa' spot
        (fun e => ∃ k ≤ ps.length, e = (dn.expandedBy ps k).singleNameEdge db stack) extra ∧
      (∀ x ∈ extra, x.1 < nfa'.nodeCount ∧ x.2.1 < nfa'.nodeCount) ∧
      nfa.nodeCount < nfa'.nodeCount ∧
      ∀ k ≤ ps.length, ∃ l,
        (spot, l, .token ((dn.expandedBy ps k).singleNameEdge db stack)) ∈ extra ∧
        (l, nfa.nodeCount, .epsilon) ∈ extra := by
  intro ps nfa'
  obtain ⟨extra, edges, grow, alt, cover⟩ :=
    addAlternatives_shape db stack spot nfa.nodeCount hspot ps dn
      { nodeCount := nfa.nodeCount + 2,
        edges := nfa.edges ++ [(spot, nfa.nodeCount + 1, .token (dn.singleNameEdge db stack)),
          (nfa.nodeCount + 1, nfa.nodeCount, .epsilon)],
        start := nfa.start, accepting := nfa.accepting } (by simp only; omega)
  simp only at grow edges
  have hnfa' : nfa' = addAlternatives db stack spot nfa.nodeCount dn ps
      { nodeCount := nfa.nodeCount + 2,
        edges := nfa.edges ++ [(spot, nfa.nodeCount + 1, .token (dn.singleNameEdge db stack)),
          (nfa.nodeCount + 1, nfa.nodeCount, .epsilon)],
        start := nfa.start, accepting := nfa.accepting } := by
    simp only [nfa', addExpandedNameToGraph_eq]
  rw [hnfa']
  refine ⟨(spot, nfa.nodeCount + 1, .token (dn.singleNameEdge db stack)) ::
    (nfa.nodeCount + 1, nfa.nodeCount, .epsilon) :: extra, ⟨by simp [edges], ?_, inv, hspot⟩,
    ?_, by omega, ?_⟩
  · rintro x (_ | ⟨_, _ | ⟨_, hx⟩⟩)
    · exact ⟨rfl, by omega, 0, Nat.zero_le _, rfl⟩
    · exact ⟨by omega, rfl⟩
    · exact (alt x hx).1.mono fun e ⟨k, _, h2, he⟩ => ⟨k, h2, he⟩
  · rintro x (_ | ⟨_, _ | ⟨_, hx⟩⟩)
    · exact ⟨by dsimp only; omega, by dsimp only; omega⟩
    · exact ⟨by dsimp only; omega, by dsimp only; omega⟩
    · exact (alt x hx).2
  · rintro (_ | k) hk
    · exact ⟨nfa.nodeCount + 1, by simp, by simp⟩
    · obtain ⟨l, hl, hl'⟩ := cover (k + 1) (by omega) hk
      exact ⟨l, by simp [hl], by simp [hl']⟩

/-- What `add_expanded_name_to_graph` builds from the data `d0` at `spot`, and how its
alternatives line up with the variant matcher of global name disambiguation. -/
structure SplicesExpansions (db : IrDatabase O) (nfa : Nfa) (d0 : DisambNameData) (spot : Nat)
    (stack : O.Formatting) : Prop where
  matcher : ∀ n, db.lookupDisambName n = d0 → ∀ e,
    (NameVariantMatcher.fromDisambName db n).accepts e = true ↔
      ∃ k ≤ (d0.disambIter db.style.citation.givennameDisambiguationRule).passes.length,
        e = (d0.expandedBy (d0.disambIter db.style.citation.givennameDisambiguationRule).passes k
          ).singleNameEdge db O.defaultFormatting
  fresh : (addExpandedNameToGraph db nfa d0 spot stack).1 = nfa.nodeCount ∧
    nfa.nodeCount < (addExpandedNameToGraph db nfa d0 spot stack).2.nodeCount
  words : ∀ w, (addExpandedNameToGraph db nfa d0 spot stack).2.Path spot
      (addExpandedNameToGraph db nfa d0 spot stack).1 w ↔
    ∃ k ≤ (d0.disambIter db.style.citation.givennameDisambiguationRule).passes.length,
      w = [(d0.expandedBy (d0.disambIter db.style.citation.givennameDisambiguationRule).passes k
        ).singleNameEdge db stack]
  frame : ∀ a b w, a < nfa.nodeCount → b < nfa.nodeCount →
    ((addExpandedNameToGraph db nfa d0 spot stack).2.Path a b w ↔ nfa.Path a b w)
  invariant : (addExpandedNameToGraph db nfa d0 spot stack).2.Invariant
  sameExpansions : stack = O.defaultFormatting → ∀ n, db.lookupDisambName n = d0 → ∀ e,
    (NameVariantMatcher.fromDisambName db n).accepts e = true ↔
      (addExpandedNameToGraph db nfa d0 spot stack).2.Path spot
        (addExpandedNameToGraph db nfa d0 spot stack).1 [e]

theorem addExpandedNameToGraph_splices (db : IrDatabase O) (nfa : Nfa) (d0 : DisambNameData)
    (spot : Nat) (stack : O.Formatting) (inv : nfa.Invariant) (hspot : spot < nfa.nodeCount) :
    SplicesExpansions db nfa d0 spot stack := by
  obtain ⟨extra, ext, lt, grow, cover⟩ :=
    addExpandedNameToGraph_extends db nfa d0 spot stack inv hspot
  have frontier : (addExpandedNameToGraph db nfa d0 spot stack).1 = nfa.nodeCount := by
    rw [addExpandedNameToGraph_eq]
  have matcher : ∀ n, db.lookupDisambName n = d0 → ∀ e,
      (NameVariantMatcher.fromDisambName db n).accepts e = true ↔
        ∃ k ≤ (d0.disambIter db.style.citation.givennameDisambiguationRule).passes.length,
          e = (d0.expandedBy (d0.disambIter db.style.citation.givennameDisambiguationRule).passes k
            ).singleNameEdge db O.defaultFormatting := by
    rintro n rfl e
    exact accepts_fromDisambName db n e
  have words : ∀ w, (addExpandedNameToGraph db nfa d0 spot stack).2.Path spot
      (addExpandedNameToGraph db nfa d0 spot stack).1 w ↔
      ∃ k ≤ (d0.disambIter db.style.citation.givennameDisambiguationRule).passes.length,
        w = [(d0.expandedBy (d0.disambIter db.style.citation.givennameDisambiguationRule).passes k
          ).singleNameEdge db stack] := by
    intro w
    rw [frontier]
    constructor
    · intro p
      obtain ⟨u, e, pu, ⟨k, hk, rfl⟩, rfl⟩ := ext.frontier_path p hspot
      obtain rfl := inv.noTokenCycle spot u pu
      exact ⟨k, hk, rfl⟩
    · rintro ⟨k, hk, rfl⟩
      obtain ⟨l, hl, hl'⟩ := cover k hk
      exact .token (ext.edges ▸ List.mem_append_right _ hl)
        (.epsilon (ext.edges ▸ List.mem_append_right _ hl') (.refl _))
  refine ⟨matcher, ⟨frontier, grow⟩, words, fun a b w _ hb => ?_, ext.invariant lt grow.le, ?_⟩
  · exact ⟨fun p => ext.old_path p hb,
      Nfa.Path.mono (by rw [ext.edges]; exact List.subset_append_left _ _)⟩
  · rintro rfl n hn e
    rw [matcher n hn e, words]
    simp

theorem smithDb_splices :
    Nfa.new.addNode.2.Invariant ∧ 0 < Nfa.new.addNode.2.nodeCount ∧
      SplicesExpansions smithDb Nfa.new.addNode.2 (smithName ⟨0⟩) 0 plainText.defaultFormatting :=
  ⟨Nfa.invariant_new.addNode, by decide,
    addExpandedNameToGraph_splices smithDb _ _ 0 _ Nfa.invariant_new.addNode (by decide)⟩

end Citeproc
