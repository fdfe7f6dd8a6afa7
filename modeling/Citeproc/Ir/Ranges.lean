import Citeproc.Ir.Transforms
import Mathlib.Data.List.SplitBy

/-!
Citation-number ranges (`collapse_ranges`); `nxt.cnum - 1` is `u32` arithmetic under a
build profile.
-/
namespace Citeproc

namespace Transforms

structure CnumIx where
  cnum : UInt32
  ix : Nat
  deriving DecidableEq, Repr

inductive RangePiece where
  | range (first last : CnumIx)
  | single (x : CnumIx)
  deriving DecidableEq, Repr

inductive Profile where
  | debug
  | release
  deriving DecidableEq, Repr

/-- `n - 1` on `u32` under a build profile; `none` is the overflow panic. -/
def Profile.pred : Profile → UInt32 → Option UInt32
  | .debug, n => if n = 0 then none else some (n - 1)
  | .release, n => some (n - 1)

/-- `attempt_append`: the piece after the call, and the piece to emit when `nxt` does not
extend it; `none` when `nxt.cnum - 1` panics. -/
def RangePiece.attemptAppend (p : Profile) (self : RangePiece) (nxt : CnumIx) :
    Option (RangePiece × Option RangePiece) :=
  (p.pred nxt.cnum).map fun pred =>
    match self with
    | .single prv => if prv.cnum = pred then (.range prv nxt, none) else (.single nxt, some self)
    | .range start last =>
      if last.cnum = pred then (.range start nxt, none) else (.single nxt, some self)

/-- The `for &num in &nums[1..]` loop: the piece in progress and the pieces pushed. -/
def collapseRangesLoop (p : Profile) : RangePiece → List RangePiece → List CnumIx →
    Option (List RangePiece)
  | wip, pieces, [] => some (pieces ++ [wip])
  | wip, pieces, num :: rest =>
    match wip.attemptAppend p num with
    | none => none
    | some (wip, emit) => collapseRangesLoop p wip (pieces ++ emit.toList) rest

def collapseRanges (p : Profile) : List CnumIx → Option (List RangePiece)
  | [] => some []
  | init :: rest => collapseRangesLoop p (.single init) [] rest

/-- A debug build panics on every list with a cnum of 0 after the first element; a
release build counts `u32::MAX` followed by 0 as consecutive. -/
theorem collapseRanges_zero_cnum :
    (∀ (init : CnumIx) (rest : List CnumIx), (∃ y ∈ rest, y.cnum = 0) →
      collapseRanges .debug (init :: rest) = none) ∧
    ∀ a b : CnumIx, a.cnum = 4294967295 → b.cnum = 0 →
      collapseRanges .release [a, b] = some [.range a b] := by
  refine ⟨fun init rest h => ?_, fun a b ha hb => ?_⟩
  · suffices loop : ∀ (rest : List CnumIx) (wip : RangePiece) (pieces : List RangePiece),
        (∃ y ∈ rest, y.cnum = 0) → collapseRangesLoop .debug wip pieces rest = none from
      loop rest _ _ h
    intro rest
    induction rest with
    | nil => simp
    | cons y rest ih =>
      rintro wip pieces ⟨z, hz, hz0⟩
      rcases List.mem_cons.1 hz with rfl | hz
      · simp [collapseRangesLoop, RangePiece.attemptAppend, Profile.pred, hz0]
      · simp only [collapseRangesLoop]
        split
        · rfl
        · exact ih _ _ ⟨z, hz, hz0⟩
  · simp only [collapseRanges, collapseRangesLoop, RangePiece.attemptAppend, Profile.pred,
      Option.map_some', ha, hb]
    rw [if_pos (by decide)]
    rfl

theorem maxThenZero_collapseRanges :
    (∃ y ∈ [(⟨0, 1⟩ : CnumIx)], y.cnum = 0) ∧
    collapseRanges .debug [⟨4294967295, 0⟩, ⟨0, 1⟩] = none ∧
    ((⟨4294967295, 0⟩ : CnumIx).cnum = 4294967295 ∧ (⟨0, 1⟩ : CnumIx).cnum = 0) ∧
    collapseRanges .release [⟨4294967295, 0⟩, ⟨0, 1⟩] = some [.range ⟨4294967295, 0⟩ ⟨0, 1⟩] :=
  ⟨⟨_, List.mem_singleton_self _, rfl⟩,
    collapseRanges_zero_cnum.1 _ _ ⟨_, List.mem_singleton_self _, rfl⟩,
    ⟨rfl, rfl⟩, collapseRanges_zero_cnum.2 _ _ rfl rfl⟩

/-- The piece for a run of consecutive numbers. -/
def RangePiece.ofRun : List CnumIx → Option RangePiece
  | [] => none
  | x :: rest => some (match rest.getLast? with
    | none => .single x
    | some last => .range x last)

def runPiece (ag : CnumIx) (g : List CnumIx) : RangePiece :=
  match g.getLast? with
  | none => .single ag
  | some first => .range first ag

theorem ofRun_reverse (ag : CnumIx) (g : List CnumIx) :
    RangePiece.ofRun (g.reverse ++ [ag]) = some (runPiece ag g) := by
  cases h : g.reverse with
  | nil => simp_all [RangePiece.ofRun, runPiece]
  | cons first rest =>
    have : g.getLast? = some first := by rw [← List.head?_reverse, h]; rfl
    simp [RangePiece.ofRun, runPiece, this]

theorem attemptAppend_runPiece (p : Profile) (ag a : CnumIx) (g : List CnumIx) :
    (runPiece ag g).attemptAppend p a = (p.pred a.cnum).map fun pred =>
      if ag.cnum = pred then (runPiece a (ag :: g), none)
      else (.single a, some (runPiece ag g)) := by
  unfold RangePiece.attemptAppend runPiece
  rw [List.getLast?_cons]
  cases g.getLast? <;> simp

theorem collapseRangesLoop_splitBy (p : Profile) (R : CnumIx → CnumIx → Bool) :
    ∀ (l : List CnumIx) (ag : CnumIx) (g : List CnumIx) (gs : List (List CnumIx)),
      (∀ a, ∀ b ∈ l, (p.pred b.cnum).map (fun pred => decide (a.cnum = pred)) = some (R a b)) →
      collapseRangesLoop p (runPiece ag g) (gs.reverse.filterMap RangePiece.ofRun) l =
        some ((List.splitBy.loop R l ag g gs).filterMap RangePiece.ofRun)
  | [], ag, g, gs, _ => by
    simp [collapseRangesLoop, List.splitBy.loop, ofRun_reverse]
  | a :: l, ag, g, gs, hR => by
    have rest : ∀ a, ∀ b ∈ l, (p.pred b.cnum).map (fun pred => decide (a.cnum = pred)) =
        some (R a b) := fun x b hb => hR x b (List.mem_cons_of_mem _ hb)
    obtain ⟨pred, hpred, hR'⟩ : ∃ pred, p.pred a.cnum = some pred ∧
        R ag a = decide (ag.cnum = pred) := by
      have := hR ag a (List.mem_cons_self _ _)
      cases h : p.pred a.cnum with
      | none => simp [h] at this
      | some pred => exact ⟨pred, rfl, by simpa [h] using this.symm⟩
    simp only [collapseRangesLoop, attemptAppend_runPiece, hpred, Option.map_some',
      List.splitBy.loop, hR']
    by_cases heq : ag.cnum = pred
    · simp only [if_pos heq, decide_eq_true heq, Option.toList_none, List.append_nil]
      exact collapseRangesLoop_splitBy p R l a (ag :: g) gs rest
    · simp only [if_neg heq, decide_eq_false heq, Option.toList_some]
      have := collapseRangesLoop_splitBy p R l a [] ((ag :: g).reverse :: gs) rest
      simpa [runPiece, ofRun_reverse] using this

theorem collapseRanges_splitBy (p : Profile) (R : CnumIx → CnumIx → Bool) (nums : List CnumIx)
    (hR : ∀ a, ∀ b ∈ nums.tail,
      (p.pred b.cnum).map (fun pred => decide (a.cnum = pred)) = some (R a b)) :
    collapseRanges p nums = some ((nums.splitBy R).filterMap RangePiece.ofRun) := by
  cases nums with
  | nil => rfl
  | cons x l => exact collapseRangesLoop_splitBy p R l x [] [] hR

/-- In a release build `collapse_ranges` emits one piece per maximal run of numbers whose
cnums go up by one modulo 2^32. -/
theorem collapseRanges_release (nums : List CnumIx) :
    collapseRanges .release nums =
      some ((nums.splitBy fun a b => decide (a.cnum = b.cnum - 1)).filterMap RangePiece.ofRun) :=
  collapseRanges_splitBy .release _ nums fun _ _ _ => rfl

theorem UInt32.eq_sub_one_iff {a b : UInt32} (hb : b ≠ 0) : a = b - 1 ↔ a.toNat + 1 = b.toNat := by
  have hb' : b.toNat ≠ 0 := fun h => hb (UInt32.toNat.inj (by simpa using h))
  have hsub : (b - 1).toNat = b.toNat - 1 :=
    UInt32.toNat_sub_of_le b 1 (show (1 : UInt32).toNat ≤ b.toNat by simp; omega)
  constructor
  · rintro rfl; omega
  · intro h; exact UInt32.toNat.inj (by omega)

theorem Profile.pred_map_eq_succ (p : Profile) (a b : CnumIx) (hb : b.cnum ≠ 0) :
    (p.pred b.cnum).map (fun pred => decide (a.cnum = pred)) =
      some (decide (a.cnum.toNat + 1 = b.cnum.toNat)) := by
  have hpred : p.pred b.cnum = some (b.cnum - 1) := by cases p <;> simp [Profile.pred, hb]
  simp [hpred, UInt32.eq_sub_one_iff hb]

/-- With no cnum of 0 after the first, either build emits one piece per maximal run of
numbers whose cnums go up by exactly one in ℕ. -/
theorem collapseRanges_nat_runs (p : Profile) (nums : List CnumIx)
    (nonzero : ∀ b ∈ nums.tail, b.cnum ≠ 0) :
    collapseRanges p nums =
      some ((nums.splitBy fun a b => decide (a.cnum.toNat + 1 = b.cnum.toNat)).filterMap
        RangePiece.ofRun) :=
  collapseRanges_splitBy p _ nums fun a b hb => Profile.pred_map_eq_succ p a b (nonzero b hb)

theorem oneTwoFour_collapseRanges :
    (∀ b ∈ [(⟨2, 2⟩ : CnumIx), ⟨4, 3⟩], b.cnum ≠ 0) ∧
    collapseRanges .debug [⟨1, 1⟩, ⟨2, 2⟩, ⟨4, 3⟩] =
      some (([⟨1, 1⟩, ⟨2, 2⟩, ⟨4, 3⟩].splitBy fun a b => decide (a.cnum.toNat + 1 = b.cnum.toNat)
        ).filterMap RangePiece.ofRun) :=
  ⟨by decide, collapseRanges_nat_runs .debug _ (by decide)⟩

theorem collapseRangesLoop_eq_none_iff (p : Profile) :
    ∀ (wip : RangePiece) (pieces : List RangePiece) (l : List CnumIx),
      collapseRangesLoop p wip pieces l = none ↔ ∃ y ∈ l, p.pred y.cnum = none
  | _, _, [] => by simp [collapseRangesLoop]
  | wip, pieces, a :: l => by
    rw [collapseRangesLoop]
    cases h : wip.attemptAppend p a with
    | none =>
      have panics : p.pred a.cnum = none := by simpa [RangePiece.attemptAppend] using h
      simpa using .inl panics
    | some r =>
      have goesOn : p.pred a.cnum ≠ none := fun hn => by simp [RangePiece.attemptAppend, hn] at h
      simp [collapseRangesLoop_eq_none_iff p r.1 _ l, goesOn]

theorem collapseRanges_eq_none_iff (p : Profile) (nums : List CnumIx) :
    collapseRanges p nums = none ↔ ∃ y ∈ nums.tail, p.pred y.cnum = none := by
  cases nums with
  | nil => simp [collapseRanges]
  | cons x l => exact collapseRangesLoop_eq_none_iff p _ _ l

/-- The citation numbers a piece stands for, as its rendering "first–last" reads. -/
def RangePiece.expand : RangePiece → List Nat
  | .single x => [x.cnum.toNat]
  | .range first last => List.range' first.cnum.toNat (last.cnum.toNat + 1 - first.cnum.toNat)

def RangePiece.first : RangePiece → CnumIx
  | .single x | .range x _ => x

def RangePiece.last : RangePiece → CnumIx
  | .single x | .range _ x => x

def RangePiece.ofRunD (g : List CnumIx) : RangePiece := (RangePiece.ofRun g).getD (.single ⟨0, 0⟩)

theorem ofRunD_first (x : CnumIx) (rest : List CnumIx) :
    (RangePiece.ofRunD (x :: rest)).first = x := by
  simp only [RangePiece.ofRunD, RangePiece.ofRun, Option.getD_some]
  split <;> rfl

theorem ofRunD_last (x : CnumIx) (rest : List CnumIx) :
    (RangePiece.ofRunD (x :: rest)).last = rest.getLast?.getD x := by
  simp only [RangePiece.ofRunD, RangePiece.ofRun, Option.getD_some]
  split <;> simp_all [RangePiece.last]

theorem eq_range'_of_chain' :
    ∀ (m : Nat) (ms : List Nat), (m :: ms).Chain' (fun a b => a + 1 = b) →
      m :: ms = List.range' m (ms.length + 1)
  | _, [], _ => rfl
  | m, m' :: ms, h => by
    obtain ⟨rfl, h'⟩ := List.chain'_cons.1 h
    rw [List.length_cons, List.range'_succ, ← eq_range'_of_chain' (m + 1) ms h']

theorem expand_ofRunD (x : CnumIx) (rest : List CnumIx)
    (run : (x :: rest).Chain' fun a b => a.cnum.toNat + 1 = b.cnum.toNat) :
    (RangePiece.ofRunD (x :: rest)).expand = (x :: rest).map (·.cnum.toNat) := by
  have chain : ((x :: rest).map fun c : CnumIx => c.cnum.toNat).Chain' (fun a b => a + 1 = b) :=
    (List.chain'_map _).2 run
  have nat := eq_range'_of_chain' _ _ chain
  cases rest with
  | nil => rfl
  | cons r rs =>
    obtain ⟨L, hL⟩ : ∃ L, (r :: rs).getLast? = some L :=
      ⟨_, List.getLast?_eq_getLast _ (List.cons_ne_nil _ _)⟩
    have last := congrArg List.getLast? nat
    simp only [List.getLast?_cons, List.getLast?_map, hL, Option.map_some', Option.getD_some,
      List.getLast?_range', List.length_map, List.length_cons] at last
    simp only [RangePiece.ofRunD, RangePiece.ofRun, hL, Option.getD_some, RangePiece.expand]
    show _ = x.cnum.toNat :: (r :: rs).map (·.cnum.toNat)
    rw [nat, List.length_map, List.length_cons]
    split at last
    · omega
    · congr 1
      simp only [Option.some.injEq] at last
      omega

/-- With no citation number 0 after the first, `collapse_ranges` loses nothing and merges
all it can: expanding the pieces gives back the citation numbers in order, and no piece
ends one below where the next begins. -/
theorem collapseRanges_expand (p : Profile) (nums : List CnumIx)
    (nonzero : ∀ b ∈ nums.tail, b.cnum ≠ 0) :
    ∃ pieces, collapseRanges p nums = some pieces ∧
      pieces.flatMap RangePiece.expand = nums.map (·.cnum.toNat) ∧
      pieces.Chain' fun a b => a.last.cnum.toNat + 1 ≠ b.first.cnum.toNat := by
  set R : CnumIx → CnumIx → Bool := fun a b => decide (a.cnum.toNat + 1 = b.cnum.toNat)
  have pieces : (nums.splitBy R).filterMap RangePiece.ofRun =
      (nums.splitBy R).map RangePiece.ofRunD := by
    rw [← List.filterMap_eq_map]
    refine List.filterMap_congr fun g hg => ?_
    obtain ⟨x, rest, rfl⟩ := List.exists_cons_of_ne_nil (List.ne_nil_of_mem_splitBy R hg)
    rfl
  refine ⟨_, collapseRanges_splitBy p R nums fun a b hb => Profile.pred_map_eq_succ p a b
    (nonzero b hb), ?_, ?_⟩
  · rw [pieces, List.flatMap_map]
    calc (nums.splitBy R).flatMap (fun g => (RangePiece.ofRunD g).expand)
        = (nums.splitBy R).flatMap (List.map (·.cnum.toNat)) := List.flatMap_congr fun g hg => by
          obtain ⟨x, rest, rfl⟩ := List.exists_cons_of_ne_nil (List.ne_nil_of_mem_splitBy R hg)
          exact expand_ofRunD x rest (by simpa [R] using List.chain'_of_mem_splitBy hg)
      _ = nums.map (·.cnum.toNat) := by
          rw [← List.flatten_splitBy R nums, List.map_flatten, List.flatten_splitBy]
          rfl
  · rw [pieces]
    refine List.chain'_map_of_chain' _ (fun a b ⟨ha, hb, apart⟩ => ?_)
      (List.chain'_getLast_head_splitBy R nums)
    obtain ⟨x, rest, rfl⟩ := List.exists_cons_of_ne_nil ha
    obtain ⟨y, rest', rfl⟩ := List.exists_cons_of_ne_nil hb
    have last : (x :: rest).getLast ha = rest.getLast?.getD x :=
      Option.some.inj ((List.getLast?_eq_getLast _ ha).symm.trans List.getLast?_cons)
    rw [ofRunD_last, ofRunD_first, ← last]
    simpa [R] using apart

theorem oneTwoFour_expand :
    (∀ b ∈ ([⟨1, 1⟩, ⟨2, 2⟩, ⟨4, 3⟩] : List CnumIx).tail, b.cnum ≠ 0) ∧
      ∃ pieces, collapseRanges .debug [⟨1, 1⟩, ⟨2, 2⟩, ⟨4, 3⟩] = some pieces ∧
        pieces.flatMap RangePiece.expand =
          ([⟨1, 1⟩, ⟨2, 2⟩, ⟨4, 3⟩] : List CnumIx).map (·.cnum.toNat) ∧
        pieces.Chain' fun a b => a.last.cnum.toNat + 1 ≠ b.first.cnum.toNat :=
  ⟨by decide, collapseRanges_expand .debug _ (by decide)⟩

end Transforms

end Citeproc
