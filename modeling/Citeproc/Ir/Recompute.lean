import Citeproc.Ir.Arena

/-!
`IR::recompute_group_vars`: one call settles every node below sequences, and a second
call changes nothing.
-/
namespace Citeproc

variable {O : OutputFormat} (neighbour : GroupVars → GroupVars → GroupVars)

def IR.payloadGroupVars : IR O → Option GroupVars
  | .yearSuffix ys => some ys.groupVars
  | .conditionalDisamb c => some c.groupVars
  | .nameCounter nc => some nc.groupVars
  | _ => none

/-- `SeqReach r c`: `c` lies below `r`, and every node above it, `r` included, is a
sequence. These are the nodes `recompute_group_vars r` forces. -/
inductive SeqReach : Node O → Node O → Prop
  | child {id s gv cs c} : c ∈ cs → SeqReach (.mk id (.seq s) gv cs) c
  | step {r id s gv cs c} : SeqReach r (.mk id (.seq s) gv cs) → c ∈ cs → SeqReach r c

mutual

def Node.eraseGv : Node O → Node O
  | .mk id ir _ cs => .mk id ir .plain (Node.eraseGvAll cs)

def Node.eraseGvAll : List (Node O) → List (Node O)
  | [] => []
  | c :: cs => Node.eraseGv c :: Node.eraseGvAll cs

end

mutual

def Node.GvSettled : Node O → Prop
  | .mk _ (.seq s) gv cs =>
    (∀ g ∈ IrSeq.overallGroupVars neighbour s.droppedGv cs, g = gv) ∧ Node.GvSettledAll cs
  | .mk _ ir gv _ => ∀ g ∈ ir.payloadGroupVars, g = gv

def Node.GvSettledAll : List (Node O) → Prop
  | [] => True
  | c :: cs => Node.GvSettled c ∧ Node.GvSettledAll cs

end

/-- One pass of the loop of `IrSeq::recompute_group_vars`: the child after forcing, with
what it forced stored. -/
def IR.storeForced (c : Node O) : Node O :=
  match IR.forceGv neighbour c with
  | (.mk id ir _ children, some force) => .mk id ir force children
  | (c, none) => c

theorem IR.seq_or_not_seq (ir : IR O) : (∃ s, ir = .seq s) ∨ ∀ s, ir ≠ .seq s := by
  cases ir <;> simp

theorem getD_eq_of_forall_mem {α : Type} {x : Option α} {a : α} (h : ∀ b ∈ x, b = a) :
    x.getD a = a := by
  cases x with
  | none => rfl
  | some b => exact h b rfl

theorem Node.eraseGvAll_eq_map (cs : List (Node O)) : Node.eraseGvAll cs = cs.map Node.eraseGv := by
  induction cs with
  | nil => rfl
  | cons c cs ih => simp [Node.eraseGvAll, ih]

theorem Node.gvSettledAll_iff (cs : List (Node O)) :
    Node.GvSettledAll neighbour cs ↔ ∀ c ∈ cs, Node.GvSettled neighbour c := by
  induction cs with
  | nil => simp [Node.GvSettledAll]
  | cons c cs ih => simp [Node.GvSettledAll, ih]

theorem IrSeq.recomputeChildren_eq_map (cs : List (Node O)) :
    IrSeq.recomputeChildren neighbour cs = cs.map (IR.storeForced neighbour) := by
  induction cs with
  | nil => rfl
  | cons c cs ih => rw [IrSeq.recomputeChildren, ih]; rfl

theorem IR.storeForced_seq (id : Nat) (s : IrSeq O) (gv : GroupVars) (cs : List (Node O)) :
    IR.storeForced neighbour (.mk id (.seq s) gv cs) =
      .mk id (.seq s) ((IrSeq.overallGroupVars neighbour s.droppedGv
        (cs.map (IR.storeForced neighbour))).getD gv) (cs.map (IR.storeForced neighbour)) := by
  rw [IR.storeForced, IR.forceGv, IrSeq.recomputeChildren_eq_map]
  cases IrSeq.overallGroupVars neighbour s.droppedGv (cs.map (IR.storeForced neighbour)) <;> rfl

theorem IR.storeForced_of_not_seq (id : Nat) (ir : IR O) (gv : GroupVars) (cs : List (Node O))
    (notSeq : ∀ s, ir ≠ .seq s) :
    IR.storeForced neighbour (.mk id ir gv cs) = .mk id ir (ir.payloadGroupVars.getD gv) cs := by
  cases ir with
  | seq s => exact absurd rfl (notSeq s)
  | _ => rfl

theorem Node.gvSettled_of_not_seq {id : Nat} {ir : IR O} {gv : GroupVars} {cs : List (Node O)}
    (notSeq : ∀ s, ir ≠ .seq s) :
    Node.GvSettled neighbour (.mk id ir gv cs) ↔ ∀ g ∈ ir.payloadGroupVars, g = gv := by
  cases ir with
  | seq s => exact absurd rfl (notSeq s)
  | _ => rfl

theorem IR.storeForced_gvSettled (c : Node O) : (IR.storeForced neighbour c).GvSettled neighbour := by
  induction c using Node.induction with
  | step id ir gv cs ih =>
    obtain ⟨s, rfl⟩ | notSeq := IR.seq_or_not_seq ir
    · rw [IR.storeForced_seq, Node.GvSettled, Node.gvSettledAll_iff, List.forall_mem_map]
      exact ⟨fun g hg => (Option.getD_eq_iff.2 (.inl hg)).symm, ih⟩
    · rw [IR.storeForced_of_not_seq _ _ _ _ _ notSeq, Node.gvSettled_of_not_seq _ notSeq]
      exact fun g hg => (Option.getD_eq_iff.2 (.inl hg)).symm

theorem IR.storeForced_of_gvSettled (c : Node O) (settled : c.GvSettled neighbour) :
    IR.storeForced neighbour c = c := by
  induction c using Node.induction with
  | step id ir gv cs ih =>
    obtain ⟨s, rfl⟩ | notSeq := IR.seq_or_not_seq ir
    · obtain ⟨stored, kids⟩ := settled
      have same : cs.map (IR.storeForced neighbour) = cs :=
        (List.map_congr_left fun c hc =>
          ih c hc ((Node.gvSettledAll_iff _ cs).1 kids c hc)).trans (List.map_id cs)
      rw [IR.storeForced_seq, same, getD_eq_of_forall_mem stored]
    · rw [IR.storeForced_of_not_seq _ _ _ _ _ notSeq,
        getD_eq_of_forall_mem ((Node.gvSettled_of_not_seq _ notSeq).1 settled)]

theorem Node.eraseGv_storeForced (c : Node O) :
    (IR.storeForced neighbour c).eraseGv = c.eraseGv := by
  induction c using Node.induction with
  | step id ir gv cs ih =>
    obtain ⟨s, rfl⟩ | notSeq := IR.seq_or_not_seq ir
    · rw [IR.storeForced_seq]
      simp only [Node.eraseGv, Node.eraseGvAll_eq_map, List.map_map]
      exact congrArg _ (List.map_congr_left ih)
    · rw [IR.storeForced_of_not_seq _ _ _ _ _ notSeq]
      rfl

theorem Node.GvSettled.overallGroupVars {s : Node O} {q : IrSeq O}
    (settled : s.GvSettled neighbour) (hq : s.ir = .seq q) (dropped : q.droppedGv.isSome) :
    IrSeq.overallGroupVars neighbour q.droppedGv s.children = some s.gv := by
  obtain ⟨id, ir, gv, cs⟩ := s
  obtain rfl : ir = .seq q := hq
  show IrSeq.overallGroupVars neighbour q.droppedGv cs = some gv
  cases h : IrSeq.overallGroupVars neighbour q.droppedGv cs with
  | none => simp [IrSeq.overallGroupVars, Option.isSome_iff_ne_none] at h dropped; contradiction
  | some g => exact congrArg some (settled.1 g h)

theorem Node.GvSettled.payloadGroupVars {c : Node O} {g : GroupVars}
    (settled : c.GvSettled neighbour) (hg : c.ir.payloadGroupVars = some g) : c.gv = g := by
  obtain ⟨id, ir, gv, cs⟩ := c
  obtain ⟨s, rfl⟩ | notSeq := IR.seq_or_not_seq ir
  · cases hg
  · exact ((Node.gvSettled_of_not_seq _ notSeq).1 settled g hg).symm

theorem IR.recomputeGroupVars_seq (id : Nat) (s : IrSeq O) (gv : GroupVars) (cs : List (Node O)) :
    IR.recomputeGroupVars neighbour (.mk id (.seq s) gv cs) =
      .mk id (.seq s) gv (cs.map (IR.storeForced neighbour)) := by
  rw [IR.recomputeGroupVars, IrSeq.recomputeChildren_eq_map]

theorem IR.recomputeGroupVars_of_not_seq {id : Nat} {ir : IR O} {gv : GroupVars}
    {cs : List (Node O)} (notSeq : ∀ s, ir ≠ .seq s) :
    IR.recomputeGroupVars neighbour (.mk id ir gv cs) = .mk id ir gv cs := by
  cases ir with
  | seq s => exact absurd rfl (notSeq s)
  | _ => rfl

theorem SeqReach.gvSettled {r c : Node O} (h : SeqReach r c)
    (root : ∀ id s gv cs, r = .mk id (.seq s) gv cs → ∀ c ∈ cs, c.GvSettled neighbour) :
    c.GvSettled neighbour := by
  induction h with
  | child hc => exact root _ _ _ _ rfl _ hc
  | step _ hc ih => exact (Node.gvSettledAll_iff _ _).1 (ih root).2 _ hc

theorem IR.recomputeGroupVars_gvSettled (r c : Node O)
    (h : SeqReach (IR.recomputeGroupVars neighbour r) c) : c.GvSettled neighbour := by
  obtain ⟨id, ir, gv, cs⟩ := r
  obtain ⟨s, rfl⟩ | notSeq := IR.seq_or_not_seq ir
  · rw [IR.recomputeGroupVars_seq] at h
    refine h.gvSettled neighbour ?_
    rintro _ _ _ _ ⟨⟩ c hc
    obtain ⟨c, -, rfl⟩ := List.mem_map.1 hc
    exact IR.storeForced_gvSettled neighbour c
  · rw [IR.recomputeGroupVars_of_not_seq neighbour notSeq] at h
    exact h.gvSettled neighbour fun _ s _ _ he => (notSeq s (congrArg Node.ir he)).elim

theorem IR.recomputeGroupVars_eraseGv (r : Node O) :
    (IR.recomputeGroupVars neighbour r).eraseGv = r.eraseGv := by
  obtain ⟨id, ir, gv, cs⟩ := r
  obtain ⟨s, rfl⟩ | notSeq := IR.seq_or_not_seq ir
  · rw [IR.recomputeGroupVars_seq]
    simp only [Node.eraseGv, Node.eraseGvAll_eq_map, List.map_map]
    exact congrArg _ (List.map_congr_left fun c _ => Node.eraseGv_storeForced neighbour c)
  · rw [IR.recomputeGroupVars_of_not_seq neighbour notSeq]

theorem IR.recomputeGroupVars_of_settled (r : Node O)
    (settled : ∀ c, SeqReach r c → c.GvSettled neighbour) :
    IR.recomputeGroupVars neighbour r = r := by
  obtain ⟨id, ir, gv, cs⟩ := r
  obtain ⟨s, rfl⟩ | notSeq := IR.seq_or_not_seq ir
  · rw [IR.recomputeGroupVars_seq]
    exact congrArg _ ((List.map_congr_left fun c hc =>
      IR.storeForced_of_gvSettled neighbour c (settled c (.child hc))).trans (List.map_id cs))
  · exact IR.recomputeGroupVars_of_not_seq neighbour notSeq

theorem IR.recomputeGroupVars_twice (r : Node O) :
    IR.recomputeGroupVars neighbour (IR.recomputeGroupVars neighbour r) =
      IR.recomputeGroupVars neighbour r :=
  IR.recomputeGroupVars_of_settled neighbour _ (IR.recomputeGroupVars_gvSettled neighbour r)

/-- `recompute_group_vars` leaves a tree as it is exactly when every node it forces is
already settled. -/
theorem IR.recomputeGroupVars_eq_self_iff (r : Node O) :
    IR.recomputeGroupVars neighbour r = r ↔ ∀ c, SeqReach r c → c.GvSettled neighbour :=
  ⟨fun fixed c h => IR.recomputeGroupVars_gvSettled neighbour r c (by rwa [fixed]),
    IR.recomputeGroupVars_of_settled neighbour r⟩

theorem IR.listYshChildren_eraseGvAll (cs : List (Node O))
    (ih : ∀ c ∈ cs, IR.listYshInner c.eraseGv = IR.listYshInner c) :
    IR.listYshChildren (Node.eraseGvAll cs) = IR.listYshChildren cs := by
  induction cs with
  | nil => rfl
  | cons c cs ihs =>
    rw [Node.eraseGvAll, IR.listYshChildren, IR.listYshChildren, ih c (List.mem_cons_self _ _),
      ihs fun x hx => ih x (List.mem_cons_of_mem _ hx)]

theorem IR.listYshInner_eraseGv (n : Node O) : IR.listYshInner n.eraseGv = IR.listYshInner n := by
  induction n using Node.induction with
  | step id ir gv cs ih =>
    have kids := IR.listYshChildren_eraseGvAll cs ih
    cases ir <;> simp only [Node.eraseGv, IR.listYshInner, kids]

/-- Recomputing group vars never changes which year-suffix hooks are found, nor their
order. -/
theorem IR.listYearSuffixHooks_recomputeGroupVars (r : Node O) :
    IR.listYearSuffixHooks (IR.recomputeGroupVars neighbour r) = IR.listYearSuffixHooks r := by
  rw [IR.listYearSuffixHooks, IR.listYearSuffixHooks, ← IR.listYshInner_eraseGv,
    IR.recomputeGroupVars_eraseGv, IR.listYshInner_eraseGv]

/-- After `recompute_group_vars r`, every sequence reached from `r` through sequences
stores the fold of its children's stored group vars when it has dropped group vars, every
year suffix, conditional and name counter so reached stores its payload's group vars,
only group vars have changed, and a second call changes nothing. -/
theorem IR.recomputeGroupVars_settles (r : Node O) :
    (∀ s q, SeqReach (IR.recomputeGroupVars neighbour r) s → s.ir = .seq q →
      q.droppedGv.isSome →
      IrSeq.overallGroupVars neighbour q.droppedGv s.children = some s.gv) ∧
    (∀ c g, SeqReach (IR.recomputeGroupVars neighbour r) c → c.ir.payloadGroupVars = some g →
      c.gv = g) ∧
    (IR.recomputeGroupVars neighbour r).eraseGv = r.eraseGv ∧
    IR.recomputeGroupVars neighbour (IR.recomputeGroupVars neighbour r) =
      IR.recomputeGroupVars neighbour r :=
  ⟨fun s _ h hq dropped =>
      (IR.recomputeGroupVars_gvSettled neighbour r s h).overallGroupVars neighbour hq dropped,
    fun c _ h hg => (IR.recomputeGroupVars_gvSettled neighbour r c h).payloadGroupVars neighbour hg,
    IR.recomputeGroupVars_eraseGv neighbour r, IR.recomputeGroupVars_twice neighbour r⟩

end Citeproc
