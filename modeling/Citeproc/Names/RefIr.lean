import Citeproc.Names.Graph

/-!
The reference side of a names element (`Names::ref_ir` in `disamb/names.rs`).
-/
namespace Citeproc

variable {O : OutputFormat}

structure PersonDisambNameRatchet where
  id : DisambName
  data : DisambNameData
  iter : SingleNameDisambIter
  deriving DecidableEq

def PersonDisambNameRatchet.new (db : IrDatabase O) (id : DisambName) (data : DisambNameData) :
    PersonDisambNameRatchet :=
  let rule := db.style.citation.givennameDisambiguationRule
  let method := SingleNameDisambMethod.fromRule rule data.primary
  { id, iter := .new method data.el, data }

inductive DisambNameRatchet (B : Type) where
  | literal (b : B)
  | person (r : PersonDisambNameRatchet)
  deriving DecidableEq

/-- The passes of `ir.rs`. -/
inductive DisambPass where
  | addNames
  | addGivenName (rule : GivenNameDisambiguationRule)
  | addYearSuffix (n : UInt32)
  | conditionals
  deriving DecidableEq, Repr

/-- csl's names element, which the core only compares; an interned id stands for it. -/
structure NamesElement where
  id : Nat
  deriving DecidableEq, Repr

/-- A name variable's names and the names element they came from. -/
structure NameIR (B : Type) where
  namesEl : NamesElement
  nameVariable : NameVariable
  maxNameCount : UInt16
  currentNameCount : UInt16
  bumpNameCount : UInt16
  gnIterIndex : Nat
  disambNames : List (DisambNameRatchet B)
  deriving DecidableEq

def NameIR.crank {B : Type} (nir : NameIR B) (pass : Option DisambPass) : NameIR B × Bool :=
  if pass = some .addNames then ({ nir with bumpNameCount := nir.bumpNameCount + 1 }, true)
  else (nir, false)

structure RefNameIR where
  nameVariable : NameVariable
  disambNameIds : List DisambName
  deriving DecidableEq, Repr

def RefNameIR.fromNameIr {B : Type} (nir : NameIR B) : RefNameIR where
  nameVariable := nir.nameVariable
  disambNameIds := nir.disambNames.filterMap fun
    | .person r => some r.id
    | .literal _ => none

/-- A built name token (`crate::names`): a ratchet, or rendered text such as a
delimiter or "et al.". -/
inductive NameTokenBuilt (B : Type) where
  | ratchet (r : DisambNameRatchet B)
  | built (b : B)
  deriving DecidableEq

/-- The reference-side IR (`RefIR`): an edge, a sequence with `RefIrSeq`'s fields, or
a name variable's ids with its automaton. -/
inductive RefIR (O : OutputFormat) where
  | edge (e : Option Edge)
  | seq (contents : List (RefIR O)) (formatting : Option O.Formatting)
      (affixes : Option Affixes) (delimiter : String)
  | name (n : RefNameIR) (nfa : Nfa)

/-- The fields of csl's names element that `ref_ir` reads itself. -/
structure Names (O : OutputFormat) where
  formatting : Option O.Formatting
  affixes : Option Affixes
  delimiter : Option String

/-- The runner `ref_ir` starts from, with the merged name element. -/
def refIrRunner (db : IrDatabase O) (nameEl : NameEl) : OneNameVar where
  nameEl := nameEl
  bumpNameCount := 0
  demoteNonDroppingParticle := db.style.demoteNonDroppingParticle
  initializeWithHyphen := db.style.initializeWithHyphen

/-- Whether a token adds nothing to the graph: text that renders empty. -/
def NameTokenBuilt.rendersEmpty (O : OutputFormat) : NameTokenBuilt O.Build → Bool
  | .ratchet (.literal b) | .built b => O.isEmpty b
  | .ratchet (.person _) => false

section Run

variable (db : IrDatabase O) (stack : O.Formatting)

/-- One iteration of the `for ntb in &ntbs` loop in the closure given to
`graph_with_stack`. -/
def addToken (nfa : Nfa) (spot : Nat) : NameTokenBuilt O.Build → Nat × Nfa
  | .ratchet (.literal b) | .built b =>
    if !O.isEmpty b then addToGraph nfa (db.edge (.output (O.outputInContext b stack))) spot
    else (spot, nfa)
  | .ratchet (.person r) => addExpandedNameToGraph db nfa r.data spot stack

/-- The closure given to `graph_with_stack`: thread `spot` through every token. -/
def runTokens : List (NameTokenBuilt O.Build) → Nfa → Nat → Nat × Nfa
  | [], nfa, spot => (spot, nfa)
  | ntb :: ntbs, nfa, spot =>
    let (spot, nfa) := addToken db stack nfa spot ntb
    runTokens ntbs nfa spot

theorem addToken_of_rendersEmpty {nfa : Nfa} {spot : Nat} {ntb : NameTokenBuilt O.Build}
    (h : ntb.rendersEmpty O = true) : addToken db stack nfa spot ntb = (spot, nfa) := by
  rcases ntb with (b | r) | b
  all_goals simp_all [NameTokenBuilt.rendersEmpty, addToken]

theorem runTokens_of_rendersEmpty :
    ∀ (ntbs : List (NameTokenBuilt O.Build)) (nfa : Nfa) (spot : Nat),
      (∀ ntb ∈ ntbs, ntb.rendersEmpty O = true) → runTokens db stack ntbs nfa spot = (spot, nfa)
  | [], _, _, _ => rfl
  | ntb :: ntbs, nfa, spot, h => by
    simp only [runTokens, addToken_of_rendersEmpty db stack (h ntb (List.mem_cons_self _ _))]
    exact runTokens_of_rendersEmpty ntbs nfa spot fun x hx => h x (List.mem_cons_of_mem _ hx)

theorem addAlternatives_nodeCount_le (spot t : Nat) :
    ∀ (dn : DisambNameData) (ps : List NameDisambPass) (nfa : Nfa),
      nfa.nodeCount ≤ (addAlternatives db stack spot t dn ps nfa).nodeCount
  | _, [], _ => le_rfl
  | dn, p :: ps, nfa => by
    rw [addAlternatives_cons]
    exact le_trans (by simp only; omega) (addAlternatives_nodeCount_le spot t _ ps _)

theorem addToken_frontier (nfa : Nfa) (spot : Nat) (ntb : NameTokenBuilt O.Build) :
    addToken db stack nfa spot ntb = (spot, nfa) ∨
      nfa.nodeCount ≤ (addToken db stack nfa spot ntb).1 ∧
        nfa.nodeCount < (addToken db stack nfa spot ntb).2.nodeCount := by
  rcases ntb with (b | r) | b
  case ratchet.person =>
    refine .inr ?_
    rw [addToken, addExpandedNameToGraph_eq]
    exact ⟨le_rfl, lt_of_lt_of_le (by simp) (addAlternatives_nodeCount_le db stack _ _ _ _ _)⟩
  all_goals by_cases hb : O.isEmpty b <;> simp [addToken, hb, addToGraph, Nfa.addNode, Nfa.addEdge]

theorem runTokens_frontier :
    ∀ (ntbs : List (NameTokenBuilt O.Build)) (nfa : Nfa) (spot : Nat),
      runTokens db stack ntbs nfa spot = (spot, nfa) ∨
        nfa.nodeCount ≤ (runTokens db stack ntbs nfa spot).1 ∧
          nfa.nodeCount < (runTokens db stack ntbs nfa spot).2.nodeCount
  | [], _, _ => .inl rfl
  | ntb :: ntbs, nfa, spot => by
    simp only [runTokens]
    rcases addToken_frontier db stack nfa spot ntb with h | ⟨h1, h2⟩
    · rw [h]; exact runTokens_frontier ntbs nfa spot
    · refine .inr ?_
      rcases runTokens_frontier ntbs (addToken db stack nfa spot ntb).2
        (addToken db stack nfa spot ntb).1 with h | ⟨h3, h4⟩
      · rw [h]; exact ⟨h1, h2⟩
      · omega

/-- The run returns the spot it started from, a node of the graph, exactly when it
added nothing. -/
theorem runTokens_fst_eq_iff (ntbs : List (NameTokenBuilt O.Build)) (nfa : Nfa) (spot : Nat)
    (hspot : spot < nfa.nodeCount) :
    (runTokens db stack ntbs nfa spot).1 = spot ↔ runTokens db stack ntbs nfa spot = (spot, nfa) := by
  refine ⟨fun h => ?_, fun h => by rw [h]⟩
  rcases runTokens_frontier db stack ntbs nfa spot with h' | ⟨h1, -⟩
  · exact h'
  · omega

theorem runTokens_fst_eq_iff_new :
    0 < Nfa.new.addNode.2.nodeCount ∧
      ((runTokens smithDb () [.built "Smith"] Nfa.new.addNode.2 0).1 = 0 ↔
        runTokens smithDb () [.built "Smith"] Nfa.new.addNode.2 0 = (0, Nfa.new.addNode.2)) :=
  ⟨by decide, runTokens_fst_eq_iff smithDb () [.built "Smith"] _ 0 (by decide)⟩

end Run

structure AddNamesState (B : Type) where
  nfa : Nfa
  runner : OneNameVar
  ntbs : List (NameTokenBuilt B)
  maxCountedTokens : UInt16
  countedTokens : UInt16

section Loop

variable (db : IrDatabase O) (stack : O.Formatting) (start : Nat)
  (graphWithStack : Nfa → Nat → (Nfa → Nat → Nat × Nfa) → Nat × Nfa)
  (namesToBuilds : OneNameVar → List (NameTokenBuilt O.Build))
  (ntbLen : List (NameTokenBuilt O.Build) → UInt16)

/-- The `while counted_tokens > max_counted_tokens` loop, one unit of fuel per
iteration. `graphWithStack` is `graph_with_stack` with the name element's formatting
and affixes, `namesToBuilds` the renderer's `names_to_builds` for this variable's
names, and `ntbLen` is `ntb_len`. -/
def addNamesLoop : Nat → AddNamesState O.Build → Option (AddNamesState O.Build)
  | 0, _ => none
  | fuel + 1, s =>
    if s.countedTokens > s.maxCountedTokens then
      let (oneRun, nfa) := graphWithStack s.nfa start (runTokens db stack s.ntbs)
      if oneRun = start then addNamesLoop fuel { s with nfa }
      else
        let runner := { s.runner with bumpNameCount := s.runner.bumpNameCount + 1 }
        let ntbs := namesToBuilds runner
        addNamesLoop fuel
          { nfa := nfa.insertAccepting oneRun, runner, ntbs,
            maxCountedTokens := s.countedTokens, countedTokens := ntbLen ntbs }
    else some s

theorem addNamesLoop_stall (fuel : Nat) (s : AddNamesState O.Build)
    (pending : s.maxCountedTokens < s.countedTokens)
    (stall : (graphWithStack s.nfa start (runTokens db stack s.ntbs)).1 = start) :
    addNamesLoop db stack start graphWithStack namesToBuilds ntbLen (fuel + 1) s =
      addNamesLoop db stack start graphWithStack namesToBuilds ntbLen fuel
        { s with nfa := (graphWithStack s.nfa start (runTokens db stack s.ntbs)).2 } := by
  simp [addNamesLoop, pending, stall]

theorem addNamesLoop_advance (fuel : Nat) (s : AddNamesState O.Build)
    (pending : s.maxCountedTokens < s.countedTokens)
    (moved : (graphWithStack s.nfa start (runTokens db stack s.ntbs)).1 ≠ start) :
    ∃ s', addNamesLoop db stack start graphWithStack namesToBuilds ntbLen (fuel + 1) s =
        addNamesLoop db stack start graphWithStack namesToBuilds ntbLen fuel s' ∧
      s'.maxCountedTokens = s.countedTokens ∧
      s'.nfa.nodeCount = (graphWithStack s.nfa start (runTokens db stack s.ntbs)).2.nodeCount := by
  simp only [addNamesLoop, gt_iff_lt, pending, if_true, moved, if_false]
  exact ⟨_, rfl, rfl, rfl⟩

theorem addNamesLoop_diverges (s : AddNamesState O.Build)
    (pending : s.maxCountedTokens < s.countedTokens)
    (stall : ∀ nfa, (graphWithStack nfa start (runTokens db stack s.ntbs)).1 = start) :
    ∀ fuel, addNamesLoop db stack start graphWithStack namesToBuilds ntbLen fuel s = none := by
  intro fuel
  induction fuel generalizing s with
  | zero => rfl
  | succ fuel ih =>
    rw [addNamesLoop_stall db stack start graphWithStack namesToBuilds ntbLen fuel s pending
      (stall _)]
    exact ih _ pending stall

/-- With runs that never end at `start` while the graph holds it, every iteration
raises `max_counted_tokens`, a `u16`; so `65536 - max_counted_tokens` iterations are
enough. -/
theorem addNamesLoop_terminates
    (productive : ∀ nfa ntbs, start < nfa.nodeCount →
      (graphWithStack nfa start (runTokens db stack ntbs)).1 ≠ start)
    (grows : ∀ nfa ntbs,
      nfa.nodeCount ≤ (graphWithStack nfa start (runTokens db stack ntbs)).2.nodeCount)
    (s : AddNamesState O.Build) (hs : start < s.nfa.nodeCount) :
    (addNamesLoop db stack start graphWithStack namesToBuilds ntbLen
      (65536 - s.maxCountedTokens.toNat) s).isSome := by
  suffices h : ∀ n (s : AddNamesState O.Build), 65535 - s.maxCountedTokens.toNat ≤ n →
      start < s.nfa.nodeCount →
      (addNamesLoop db stack start graphWithStack namesToBuilds ntbLen (n + 1) s).isSome by
    have hm : s.maxCountedTokens.toNat < 65536 := s.maxCountedTokens.toNat_lt_size
    rw [show 65536 - s.maxCountedTokens.toNat = 65535 - s.maxCountedTokens.toNat + 1 by omega]
    exact h _ s le_rfl hs
  intro n
  induction n with
  | zero =>
    intro s hn _
    have hc : s.countedTokens.toNat < 65536 := s.countedTokens.toNat_lt_size
    have idle : ¬ s.maxCountedTokens < s.countedTokens := fun h => by
      have : s.maxCountedTokens.toNat < s.countedTokens.toNat := h
      omega
    simp [addNamesLoop, idle]
  | succ n ih =>
    intro s hn hs
    by_cases pending : s.maxCountedTokens < s.countedTokens
    · obtain ⟨s', h, hmax, hcount⟩ := addNamesLoop_advance db stack start graphWithStack
        namesToBuilds ntbLen (n + 1) s pending (productive _ _ hs)
      have : s.maxCountedTokens.toNat < s.countedTokens.toNat := pending
      rw [h]
      exact ih s' (by rw [hmax]; omega) (hcount ▸ lt_of_lt_of_le hs (grows _ _))
    · simp [addNamesLoop, pending]

end Loop

def prefixedGraphWithStack (e : Edge) (nfa : Nfa) (spot : Nat) (run : Nfa → Nat → Nat × Nfa) :
    Nat × Nfa :=
  let (spot, nfa) := addToGraph nfa e spot
  run nfa spot

theorem prefixedGraphWithStack_frontier (db : IrDatabase O) (stack : O.Formatting) (e : Edge)
    (nfa : Nfa) (spot : Nat) (ntbs : List (NameTokenBuilt O.Build)) :
    nfa.nodeCount ≤ (prefixedGraphWithStack e nfa spot (runTokens db stack ntbs)).1 ∧
      nfa.nodeCount < (prefixedGraphWithStack e nfa spot (runTokens db stack ntbs)).2.nodeCount := by
  have step : (addToGraph nfa e spot).1 = nfa.nodeCount ∧
      (addToGraph nfa e spot).2.nodeCount = nfa.nodeCount + 1 := ⟨rfl, rfl⟩
  rcases runTokens_frontier db stack ntbs (addToGraph nfa e spot).2 (addToGraph nfa e spot).1
    with h | ⟨h1, h2⟩
  · simp only [prefixedGraphWithStack, h]; omega
  · simp only [prefixedGraphWithStack]; omega

theorem addNamesLoop_terminates_prefixed :
    (∀ nfa ntbs, 0 < nfa.nodeCount →
      (prefixedGraphWithStack ⟨0⟩ nfa 0 (runTokens smithDb () ntbs)).1 ≠ 0) ∧
    (∀ nfa ntbs,
      nfa.nodeCount ≤ (prefixedGraphWithStack ⟨0⟩ nfa 0 (runTokens smithDb () ntbs)).2.nodeCount) ∧
    0 < (Nfa.new.addNode.2.insertStart 0).nodeCount ∧
    (addNamesLoop smithDb () 0 (prefixedGraphWithStack ⟨0⟩) (fun _ => []) (fun _ => 0)
      (65536 - (0 : UInt16).toNat)
      ⟨Nfa.new.addNode.2.insertStart 0, refIrRunner smithDb ⟨none, none, none, ⟨0⟩⟩, [], 0, 1⟩).isSome :=
  have productive : ∀ nfa ntbs, 0 < nfa.nodeCount →
      (prefixedGraphWithStack ⟨0⟩ nfa 0 (runTokens smithDb () ntbs)).1 ≠ 0 := fun nfa ntbs h => by
    have := (prefixedGraphWithStack_frontier smithDb () ⟨0⟩ nfa 0 ntbs).1
    omega
  have grows : ∀ nfa ntbs, nfa.nodeCount ≤
      (prefixedGraphWithStack ⟨0⟩ nfa 0 (runTokens smithDb () ntbs)).2.nodeCount :=
    fun nfa ntbs => (prefixedGraphWithStack_frontier smithDb () ⟨0⟩ nfa 0 ntbs).2.le
  ⟨productive, grows, by decide,
    addNamesLoop_terminates smithDb () 0 _ _ _ productive grows
      ⟨Nfa.new.addNode.2.insertStart 0, refIrRunner smithDb ⟨none, none, none, ⟨0⟩⟩, [], 0, 1⟩
      (by decide)⟩

section RefIr

variable (db : IrDatabase O) (stack : O.Formatting)
  (graphWithStack : Nfa → Nat → (Nfa → Nat → Nat × Nfa) → Nat × Nfa)
  (namesToBuilds : OneNameVar → List (DisambNameRatchet O.Build) → List (NameTokenBuilt O.Build))
  (ntbLen : List (NameTokenBuilt O.Build) → UInt16)

/-- One name variable: a fresh automaton with its start node, then the add-names loop. -/
def nameVarNfa (fuel : Nat) (runner : OneNameVar) (dns : List (DisambNameRatchet O.Build)) :
    Option (AddNamesState O.Build) :=
  let (start, nfa) := Nfa.new.addNode
  let nfa := nfa.insertStart start
  let ntbs := namesToBuilds runner dns
  addNamesLoop db stack start graphWithStack (namesToBuilds · dns) ntbLen fuel
    { nfa, runner, ntbs, maxCountedTokens := 0, countedTokens := ntbLen ntbs }

/-- The `for nir in name_irs` loop. The runner, and with it the bumped name count,
carries over from one variable to the next. -/
def nameIrsLoop (fuel : Nat) : OneNameVar → List (NameIR O.Build) → Option (List (RefIR O))
  | _, [] => some []
  | runner, nir :: nirs => do
    let s ← nameVarNfa db stack graphWithStack namesToBuilds ntbLen fuel runner nir.disambNames
    let rest ← nameIrsLoop fuel s.runner nirs
    pure (if !s.nfa.accepting.isEmpty then .name (.fromNameIr nir) s.nfa :: rest else rest)

/-- `Names::ref_ir`, given the merged name element and `to_individual_name_irs`; `none`
when a loop runs out of fuel. -/
def Names.refIr (fuel : Nat) (names : Names O) (nameEl : NameEl) (nameIrs : List (NameIR O.Build)) :
    Option (RefIR O × GroupVars) := do
  let contents ← nameIrsLoop db stack graphWithStack namesToBuilds ntbLen fuel
    (refIrRunner db nameEl) nameIrs
  if contents.isEmpty then pure (.edge none, .onlyEmpty)
  else pure (.seq contents names.formatting names.affixes (names.delimiter.getD ""), .didRender)

/-- A first name variable whose tokens all render empty, under a `graph_with_stack`
that adds nothing around a run that adds nothing, keeps `ref_ir` in its loop for
ever. -/
theorem Names.refIr_diverges (names : Names O) (nameEl : NameEl) (nir : NameIR O.Build)
    (nirs : List (NameIR O.Build))
    (bare : ∀ nfa, (graphWithStack nfa 0 fun nfa spot => (spot, nfa)).1 = 0)
    (empty : ∀ ntb ∈ namesToBuilds (refIrRunner db nameEl) nir.disambNames,
      ntb.rendersEmpty O = true)
    (counted : 0 < ntbLen (namesToBuilds (refIrRunner db nameEl) nir.disambNames)) :
    ∀ fuel, Names.refIr db stack graphWithStack namesToBuilds ntbLen fuel names nameEl
      (nir :: nirs) = none := by
  intro fuel
  have idle : runTokens db stack (namesToBuilds (refIrRunner db nameEl) nir.disambNames) =
      fun nfa spot => (spot, nfa) :=
    funext fun nfa => funext fun spot => runTokens_of_rendersEmpty db stack _ nfa spot empty
  have stuck : nameVarNfa db stack graphWithStack namesToBuilds ntbLen fuel
      (refIrRunner db nameEl) nir.disambNames = none :=
    addNamesLoop_diverges db stack 0 graphWithStack _ ntbLen _ counted
      (fun nfa => by rw [idle]; exact bare nfa) fuel
  simp [Names.refIr, nameIrsLoop, stuck]

end RefIr

def bareGraphWithStack (nfa : Nfa) (spot : Nat) (run : Nfa → Nat → Nat × Nfa) : Nat × Nfa :=
  run nfa spot

def ratchetTokens (_ : OneNameVar) (dns : List (DisambNameRatchet String)) :
    List (NameTokenBuilt String) :=
  dns.map .ratchet

def tokenCount (ntbs : List (NameTokenBuilt String)) : UInt16 := ntbs.length.toUInt16

def emptyLiteralNir : NameIR String := ⟨⟨0⟩, .author, 1, 1, 0, 0, [.literal ""]⟩

theorem emptyLiteralName_refIr_diverges :
    (∀ nfa, (bareGraphWithStack nfa 0 fun nfa spot => (spot, nfa)).1 = 0) ∧
    (∀ ntb ∈ ratchetTokens (refIrRunner smithDb ⟨none, none, none, ⟨0⟩⟩) emptyLiteralNir.disambNames,
      ntb.rendersEmpty plainText = true) ∧
    0 < tokenCount (ratchetTokens (refIrRunner smithDb ⟨none, none, none, ⟨0⟩⟩)
      emptyLiteralNir.disambNames) ∧
    ∀ fuel, Names.refIr smithDb () bareGraphWithStack ratchetTokens tokenCount fuel
      ⟨none, none, none⟩ ⟨none, none, none, ⟨0⟩⟩ [emptyLiteralNir] = none :=
  ⟨fun _ => rfl, by decide, by decide,
    Names.refIr_diverges smithDb () bareGraphWithStack ratchetTokens tokenCount _ _ _ []
      (fun _ => rfl) (by decide) (by decide)⟩

end Citeproc
