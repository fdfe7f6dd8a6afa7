import Citeproc.Ir.Arena

/-!
What the traversals of `ir.rs` compute.
-/
namespace Citeproc

variable {O : OutputFormat} (neighbour : GroupVars → GroupVars → GroupVars)

theorem IrSeq.overallGroupVars_mem (d : Option GroupVars) (cs : List (Node O)) :
    ∀ g ∈ IrSeq.overallGroupVars neighbour d cs, g = .important ∨ g = .plain := by
  cases d <;> simp only [IrSeq.overallGroupVars, Option.map_none', Option.map_some',
    Option.mem_def, reduceCtorEq, false_implies, implies_true, Option.some.injEq]
  rintro g rfl
  split <;> simp

/-- The test `map_or(true, should_render_tree)` on the overall group vars always passes. -/
@[simp] theorem IrSeq.overallGroupVars_all_shouldRenderTree (d : Option GroupVars)
    (cs : List (Node O)) :
    (IrSeq.overallGroupVars neighbour d cs).all GroupVars.shouldRenderTree = true := by
  cases h : IrSeq.overallGroupVars neighbour d cs with
  | none => rfl
  | some g => rcases IrSeq.overallGroupVars_mem neighbour d cs g h with rfl | rfl <;> rfl

@[simp] theorem IrSeq.appendEdges_false (s : IrSeq O) (innards : List EdgeData) :
    s.appendEdges false innards = [] := rfl

/-- A sequence whose first child is a rendered leaf: `is_empty` holds of it, yet it
flattens to some output and its edge stream is not empty. -/
theorem IR.isEmpty_seq_rendered_child (s : IrSeq O) (i j : Nat) (gv gv' : GroupVars)
    (e : CiteEdgeData O.Build) (cs : List (Node O)) :
    IR.isEmpty (.mk i (.seq s) gv (.mk j (.rendered (some e)) gv' [] :: cs)) = true ∧
      (IR.flatten neighbour (.mk i (.seq s) gv (.mk j (.rendered (some e)) gv' [] :: cs))).isSome ∧
      IR.toEdgeStream neighbour (.mk i (.seq s) gv (.mk j (.rendered (some e)) gv' [] :: cs)) ≠ [] := by
  refine ⟨rfl, ?_, ?_⟩
  · simp [IR.flatten, IR.flattenAll, IrSeq.flattenSeq]
  · simp [IR.toEdgeStream, IR.appendEdges, IrSeq.appendEdges, IrSeq.appendInnards]

/-- The edge stream of a sequence does not depend on its quotes or its text case. -/
theorem IR.toEdgeStream_seq_quotes_textCase (s : IrSeq O) (q : Option O.Quotes) (tc : TextCase)
    (i : Nat) (gv : GroupVars) (cs : List (Node O)) :
    IR.toEdgeStream neighbour (.mk i (.seq { s with quotes := q, textCase := tc }) gv cs) =
      IR.toEdgeStream neighbour (.mk i (.seq s) gv cs) := by
  simp only [IR.toEdgeStream, IR.appendEdges]
  rfl

def quotedSeq (quotes : Option (String × String)) : Node plainText :=
  .mk 0 (.seq ⟨none, none, "", none, quotes, .none, none⟩) .plain
    [.mk 1 (.rendered (some (.output "x"))) .plain []]

def affixedEmptySeq : Node plainText :=
  .mk 0 (.seq ⟨none, some ⟨"(", ")"⟩, "", none, none, .none, none⟩) .plain
    [.mk 1 (.rendered none) .plain []]

def affixTextSeq : Node plainText :=
  .mk 0 (.seq ⟨none, none, "", none, none, .none, none⟩) .plain
    [.mk 1 (.rendered (some (.output "("))) .plain [],
     .mk 2 (.rendered (some (.output ")"))) .plain []]

theorem quotedSeq_sameEdges_differentFlatten :
    (IR.toEdgeStream (fun g _ => g) (quotedSeq (some ("«", "»"))) =
        IR.toEdgeStream (fun g _ => g) (quotedSeq none) ∧
      IR.flatten (fun g _ => g) (quotedSeq (some ("«", "»"))) ≠
        IR.flatten (fun g _ => g) (quotedSeq none)) ∧
    IR.toEdgeStream (fun g _ => g) affixedEmptySeq = IR.toEdgeStream (fun g _ => g) affixTextSeq ∧
      IR.flatten (fun g _ => g) affixedEmptySeq ≠ IR.flatten (fun g _ => g) affixTextSeq :=
  ⟨⟨@IR.toEdgeStream_seq_quotes_textCase plainText (fun g _ => g) ⟨none, none, "", none, none, .none, none⟩
      (some ("«", "»")) .none 0 .plain [.mk 1 (.rendered (some (.output "x"))) .plain []],
    by decide⟩, by decide, by decide⟩

/-- `deep_equals` is not structural equality: a name counter is never equal to itself,
and a childless container equals the same container with any children. -/
theorem IR.deepEquals_nameCounter_false_and_zip_truncates :
    (∀ (i : Nat) (nc : IrNameCounter O.Build) (gv : GroupVars) (cs : List (Node O)),
      IR.deepEquals (.mk i (.nameCounter nc) gv cs) (.mk i (.nameCounter nc) gv cs) = false) ∧
    ∀ (i j : Nat) (s : IrSeq O) (gv gv' : GroupVars) (c : Node O) (cs : List (Node O)),
      IR.deepEquals (.mk i (.seq s) gv []) (.mk j (.seq s) gv' (c :: cs)) = true :=
  ⟨fun _ _ _ _ => rfl, fun _ _ _ _ _ _ _ => by simp [IR.deepEquals, IR.deepEqualsChildren]⟩

theorem IR.deepEqualsChildren_comm_of {as : List (Node O)}
    (ih : ∀ a ∈ as, ∀ b, IR.deepEquals a b = IR.deepEquals b a) :
    ∀ bs, IR.deepEqualsChildren as bs = IR.deepEqualsChildren bs as := by
  induction as with
  | nil => intro bs; cases bs <;> rfl
  | cons a as iha =>
    rintro (_ | ⟨b, bs⟩)
    · rfl
    · simp only [IR.deepEqualsChildren, ih a (List.mem_cons_self _ _) b,
        iha fun x hx => ih x (List.mem_cons_of_mem _ hx)]

/-- `deep_equals` is symmetric. -/
theorem IR.deepEquals_comm (a b : Node O) : IR.deepEquals a b = IR.deepEquals b a := by
  induction a using Node.induction generalizing b with
  | step _ a _ as ih =>
    obtain ⟨_, b, _, bs⟩ := b
    have children := IR.deepEqualsChildren_comm_of ih bs
    cases a <;> cases b <;> simp [IR.deepEquals, children, BEq.comm]

mutual

def IR.noNameCounter : Node O → Bool
  | .mk _ (.nameCounter _) _ _ => false
  | .mk _ _ _ cs => IR.noNameCounterAll cs

def IR.noNameCounterAll : List (Node O) → Bool
  | [] => true
  | c :: cs => IR.noNameCounter c && IR.noNameCounterAll cs

end

theorem IR.noNameCounterAll_iff (cs : List (Node O)) :
    IR.noNameCounterAll cs = true ↔ ∀ c ∈ cs, IR.noNameCounter c = true := by
  induction cs with
  | nil => simp [IR.noNameCounterAll]
  | cons c cs ih => simp [IR.noNameCounterAll, ih]

theorem IR.noNameCounter_children {i : Nat} {ir : IR O} {gv : GroupVars} {cs : List (Node O)}
    (h : IR.noNameCounter (.mk i ir gv cs) = true) : ∀ c ∈ cs, IR.noNameCounter c = true := by
  cases ir <;> first | cases h | exact (IR.noNameCounterAll_iff cs).1 h

theorem IR.deepEqualsChildren_self_of {cs : List (Node O)}
    (h : ∀ c ∈ cs, IR.deepEquals c c = true) : IR.deepEqualsChildren cs cs = true := by
  induction cs with
  | nil => rfl
  | cons c cs ih =>
    simp only [IR.deepEqualsChildren, h c (List.mem_cons_self _ _), Bool.true_and]
    exact ih fun x hx => h x (List.mem_cons_of_mem _ hx)

/-- Without name counters, `deep_equals` is reflexive. -/
theorem IR.deepEquals_self (n : Node O) (h : IR.noNameCounter n = true) :
    IR.deepEquals n n = true := by
  induction n using Node.induction with
  | step _ ir _ cs ih =>
    have children : IR.deepEqualsChildren cs cs = true := IR.deepEqualsChildren_self_of
      fun c hc => ih c hc (IR.noNameCounter_children h c hc)
    cases ir <;> simp_all [IR.deepEquals, IR.noNameCounter]

theorem affixedEmptySeq_deepEquals_self :
    IR.noNameCounter affixedEmptySeq = true ∧ IR.deepEquals affixedEmptySeq affixedEmptySeq = true :=
  ⟨rfl, IR.deepEquals_self _ rfl⟩

def IR.isYearSuffix : IR O → Bool
  | .yearSuffix _ => true
  | _ => false

def IR.isSeqOrConditional : IR O → Bool
  | .seq _ | .conditionalDisamb _ => true
  | _ => false

mutual

/-- The nodes of a subtree in pre-order, each with the payloads of the nodes above it,
from the subtree's root down. -/
def Node.preorder : Node O → List (List (IR O) × Node O)
  | .mk id ir gv cs =>
    ([], .mk id ir gv cs) :: (Node.preorderAll cs).map fun p => (ir :: p.1, p.2)

def Node.preorderAll : List (Node O) → List (List (IR O) × Node O)
  | [] => []
  | c :: cs => Node.preorder c ++ Node.preorderAll cs

end

def IR.isHook (p : List (IR O) × Node O) : Bool :=
  p.2.ir.isYearSuffix && p.1.all IR.isSeqOrConditional

theorem IR.isHook_cons (ir : IR O) (p : List (IR O) × Node O) :
    IR.isHook (ir :: p.1, p.2) = (ir.isSeqOrConditional && IR.isHook p) := by
  simp only [IR.isHook, List.all_cons, Bool.and_left_comm]

theorem IR.filter_isHook_below (ir : IR O) (l : List (List (IR O) × Node O)) :
    (l.map fun p => (ir :: p.1, p.2)).filter IR.isHook =
      if ir.isSeqOrConditional then (l.filter IR.isHook).map fun p => (ir :: p.1, p.2)
      else [] := by
  rw [List.filter_map]
  cases h : ir.isSeqOrConditional <;> simp [Function.comp_def, IR.isHook_cons, h]

theorem IR.listYshChildren_preorderAll (cs : List (Node O))
    (ih : ∀ c ∈ cs, IR.listYshInner c = ((Node.preorder c).filter IR.isHook).map (·.2.id)) :
    IR.listYshChildren cs = ((Node.preorderAll cs).filter IR.isHook).map (·.2.id) := by
  induction cs with
  | nil => rfl
  | cons c cs ihs =>
    rw [IR.listYshChildren, Node.preorderAll, List.filter_append, List.map_append,
      ih c (List.mem_cons_self _ _), ihs fun x hx => ih x (List.mem_cons_of_mem _ hx)]

theorem IR.listYshInner_preorder (n : Node O) :
    IR.listYshInner n = ((Node.preorder n).filter IR.isHook).map (·.2.id) := by
  induction n using Node.induction with
  | step id ir gv cs ih =>
    have kids := IR.listYshChildren_preorderAll cs ih
    rw [Node.preorder, List.filter_cons, IR.filter_isHook_below]
    cases ir <;> simp [IR.listYshInner, kids, IR.isHook, Node.ir, Node.id, IR.isYearSuffix,
      IR.isSeqOrConditional, List.map_map, Function.comp_def]

/-- `list_year_suffix_hooks` lists, in pre-order, the year suffixes of the subtree every
node above which, the root included, is a sequence or a conditional; as the arena's ids
are distinct, each once. -/
theorem IR.listYearSuffixHooks_preorder (root : Node O) :
    IR.listYearSuffixHooks root = ((Node.preorder root).filter IR.isHook).map (·.2.id) ∧
    (((Node.preorder root).map (·.2.id)).Nodup → (IR.listYearSuffixHooks root).Nodup) := by
  have hooks := IR.listYshInner_preorder root
  refine ⟨hooks, fun nodup => ?_⟩
  rw [IR.listYearSuffixHooks, hooks]
  exact ((List.filter_sublist _).map _).nodup nodup

def hookTree : Node plainText :=
  .mk 0 (.seq IrSeq.default) .plain
    [.mk 1 (.yearSuffix ⟨.plain, .important, none⟩) .important [],
     .mk 2 (.conditionalDisamb ⟨⟨0⟩, .important, false⟩) .important
       [.mk 3 (.yearSuffix ⟨.plain, .important, none⟩) .important []],
     .mk 4 (.nameCounter ⟨[], .important⟩) .important
       [.mk 5 (.yearSuffix ⟨.plain, .important, none⟩) .important []]]

example : IR.listYearSuffixHooks hookTree = [1, 3] := rfl

end Citeproc
