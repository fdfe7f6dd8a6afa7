import Citeproc.Ir.Ranges

/-!
Cite grouping and collapsing (`group_and_collapse` in `ir/transforms.rs`); the grouping
map goes stale with interleaved groups, and is right for one repeated name.
-/
namespace Citeproc

namespace Transforms

/-- The part of `citeproc_io::Cite` that grouping reads: whether it has a prefix or a
suffix. -/
structure Cite where
  hasPrefix : Bool
  hasSuffix : Bool
  deriving DecidableEq, Repr

/-- Modelled from the spec: a cite has an affix when it has "a user-supplied prefix or
suffix". -/
def Cite.hasAffix (c : Cite) : Bool := c.hasPrefix || c.hasSuffix

inductive Collapse where
  | citationNumber
  | year
  | yearSuffix
  | yearSuffixRanged
  deriving DecidableEq, Repr

/-- A cite in grouping (`Unnamed3`); `gen4` stands for the IR of its `IrGen`. The year-suffix
fields are left out: nothing here reads or writes them. -/
structure Unnamed3 (O : OutputFormat) where
  cite : Cite
  cnum : Option UInt32
  gen4 : IR O
  isFirst : Bool
  shouldCollapse : Bool
  collapsedRanges : List RangePiece
  vanished : Bool

variable {O : OutputFormat}

def Unnamed3.new (cite : Cite) (cnum : Option UInt32) (gen4 : IR O) : Unnamed3 O :=
  ⟨cite, cnum, gen4, false, false, [], false⟩

/-- `slice.rotate_right(1)`: the last item moves to the front. -/
def rotateRightOne {α : Type} (l : List α) : List α := l.getLast?.toList ++ l.dropLast

/-- `cites[lo..hi].rotate_right(1)`. -/
def rotateSlice {α : Type} (lo hi : Nat) (l : List α) : List α :=
  l.take lo ++ rotateRightOne ((l.take hi).drop lo) ++ l.drop hi

section Grouping

variable (render : IR O → Option String)

/-- The grouping key: the first name block's IR flattened and output (`render`), if the
cite has a name block. -/
def Unnamed3.nameKey (u : Unnamed3 O) : Option String :=
  u.gen4.firstNameBlock.bind fun nb => render nb.2

/-- The `and_modify` closure for an entry `(oix, seen_once)` already in the map, at
position `ix`: the cites and the entry after it. -/
def groupEntry (ix : Nat) (cites : List (Unnamed3 O)) (oix : Nat) (seenOnce : Bool) :
    List (Unnamed3 O) × (Nat × Bool) :=
  if (cites[oix]?.any (·.cite.hasSuffix)) || (cites[oix + 1]?.any (·.cite.hasPrefix)) ||
      (cites[ix - 1]?.any (·.cite.hasSuffix)) || (cites[ix]?.any (·.cite.hasAffix)) then
    (cites, (ix, seenOnce))
  else if oix < ix then
    let cites := if !seenOnce then cites.modify (fun u => { u with isFirst := true }) oix
      else cites
    let cites := cites.modify (fun u => { u with shouldCollapse := true }) ix
    (rotateSlice (oix + 1) (ix + 1) cites, (oix + 1, true))
  else (cites, (oix, seenOnce))

/-- One iteration of `for ix in 0..cites.len()` in the grouping pass. -/
def groupStep (st : List (Unnamed3 O) × (String → Option (Nat × Bool))) (ix : Nat) :
    List (Unnamed3 O) × (String → Option (Nat × Bool)) :=
  let (cites, m) := st
  match cites[ix]?.bind (Unnamed3.nameKey render) with
  | none => (cites, m)
  | some rendered =>
    let (cites, entry) := match m rendered with
      | some (oix, seenOnce) => groupEntry ix cites oix seenOnce
      | none => (cites, (ix, false))
    (cites, fun k => if k = rendered then some entry else m k)

/-- The grouping pass, from an empty map. -/
def groupByName (cites : List (Unnamed3 O)) : List (Unnamed3 O) :=
  ((List.range cites.length).foldl (groupStep render) (cites, fun _ => none)).1

@[simp] theorem Unnamed3.nameKey_isFirst (u : Unnamed3 O) (b : Bool) :
    ({ u with isFirst := b }).nameKey render = u.nameKey render := rfl

@[simp] theorem Unnamed3.nameKey_shouldCollapse (u : Unnamed3 O) (b : Bool) :
    ({ u with shouldCollapse := b }).nameKey render = u.nameKey render := rfl

/-- Two interleaved groups `a, b, a, b` of cites without affixes: the members of the
second group change places, and its later member is marked to collapse behind a member
of the first group, which is marked first of a group as well. -/
theorem groupByName_interleaved (u0 u1 u2 u3 : Unnamed3 O) (a b : String) (hab : a ≠ b)
    (k0 : u0.nameKey render = some a) (k1 : u1.nameKey render = some b)
    (k2 : u2.nameKey render = some a) (k3 : u3.nameKey render = some b)
    (plain : ∀ u ∈ [u0, u1, u2, u3], u.cite = ⟨false, false⟩) :
    groupByName render [u0, u1, u2, u3] =
      [{ u0 with isFirst := true }, { u2 with shouldCollapse := true, isFirst := true },
        { u3 with shouldCollapse := true }, u1] := by
  simp only [List.mem_cons, List.mem_singleton, List.not_mem_nil, or_false,
    forall_eq_or_imp, forall_eq] at plain
  obtain ⟨c0, c1, c2, c3⟩ := plain
  simp [groupByName, List.range_succ, groupStep, groupEntry, rotateSlice, rotateRightOne,
    Cite.hasAffix, k0, k1, k2, k3, c0, c1, c2, c3, hab, hab.symm]

def Unnamed3.content (u : Unnamed3 O) : Cite × Option UInt32 × IR O × List RangePiece × Bool :=
  (u.cite, u.cnum, u.gen4, u.collapsedRanges, u.vanished)

theorem rotateRightOne_perm {α : Type} (l : List α) : (rotateRightOne l).Perm l := by
  rcases List.eq_nil_or_concat l with rfl | ⟨l, x, rfl⟩
  · rfl
  · simpa [rotateRightOne] using @List.perm_append_comm _ [x] l

theorem rotateSlice_perm {α : Type} {lo hi : Nat} (h : lo ≤ hi) (l : List α) :
    (rotateSlice lo hi l).Perm l := by
  have split : l.take lo ++ (l.take hi).drop lo ++ l.drop hi = l := by
    conv_rhs => rw [← List.take_append_drop hi l, ← List.take_append_drop lo (l.take hi)]
    rw [List.take_take, Nat.min_eq_left h]
  exact (((rotateRightOne_perm _).append_left _).append_right _).trans (List.Perm.of_eq split)

theorem map_modify_content (f : Unnamed3 O → Unnamed3 O) (hf : ∀ u, (f u).content = u.content) :
    ∀ (n : Nat) (l : List (Unnamed3 O)), (l.modify f n).map Unnamed3.content = l.map Unnamed3.content
  | _, [] => by simp
  | 0, u :: l => by simp [hf]
  | n + 1, u :: l => by simp [map_modify_content f hf n l]

@[simp] theorem map_content_modify_isFirst (n : Nat) (l : List (Unnamed3 O)) :
    (l.modify (fun u => { u with isFirst := true }) n).map Unnamed3.content =
      l.map Unnamed3.content :=
  map_modify_content (fun u => { u with isFirst := true }) (fun _ => rfl) n l

@[simp] theorem map_content_modify_shouldCollapse (n : Nat) (l : List (Unnamed3 O)) :
    (l.modify (fun u => { u with shouldCollapse := true }) n).map Unnamed3.content =
      l.map Unnamed3.content :=
  map_modify_content (fun u => { u with shouldCollapse := true }) (fun _ => rfl) n l

theorem groupEntry_perm (ix : Nat) (cites : List (Unnamed3 O)) (oix : Nat) (seenOnce : Bool) :
    ((groupEntry ix cites oix seenOnce).1.map Unnamed3.content).Perm
      (cites.map Unnamed3.content) := by
  unfold groupEntry
  split
  · rfl
  · split
    · rename_i hlt
      refine ((rotateSlice_perm (by omega) _).map _).trans (List.Perm.of_eq ?_)
      split <;> simp
    · rfl

/-- Grouping only reorders the cites and marks them: the cites keep every other field, and
the list after it is a permutation of the list before. -/
theorem groupByName_perm (cites : List (Unnamed3 O)) :
    ((groupByName render cites).map Unnamed3.content).Perm (cites.map Unnamed3.content) := by
  suffices h : ∀ (ixs : List Nat) (st : List (Unnamed3 O) × (String → Option (Nat × Bool))),
      ((ixs.foldl (groupStep render) st).1.map Unnamed3.content).Perm
        (st.1.map Unnamed3.content) from h _ _
  intro ixs
  induction ixs with
  | nil => intro st; rfl
  | cons ix ixs ih =>
    rintro ⟨cites, m⟩
    refine (ih _).trans ?_
    simp only [groupStep]
    split
    · rfl
    · split <;> simp only
      · exact groupEntry_perm _ _ _ _
      · rfl

def namedCite (n : UInt32) (name : String) : Unnamed3 plainText :=
  .new ⟨false, false⟩ (some n) (.name ⟨⟨0⟩, .author, 1, 1, 0, 0, []⟩ (.rendered (some (.output name))))

def renderLeaf : IR plainText → Option String
  | .rendered (some e) => some e.inner
  | _ => none

theorem modify_append_length {α : Type} (f : α → α) (l₁ l₂ : List α) (a : α) {n : Nat}
    (h : l₁.length = n) : (l₁ ++ a :: l₂).modify f n = l₁ ++ f a :: l₂ := by
  subst h
  induction l₁ <;> simp [*]

theorem rotateSlice_append {α : Type} (P M R : List α) (z : α) {lo hi : Nat}
    (hlo : P.length = lo) (hhi : P.length + M.length + 1 = hi) :
    rotateSlice lo hi (P ++ M ++ z :: R) = P ++ z :: (M ++ R) := by
  subst hlo hhi
  have len : (P ++ M ++ [z]).length = P.length + M.length + 1 := by simp [Nat.add_assoc]
  have whole : P ++ M ++ z :: R = (P ++ M ++ [z]) ++ R := by simp
  rw [rotateSlice, whole, List.take_left' len, List.drop_left' len]
  simp [rotateRightOne]

theorem getElem?_append_cons {α : Type} (l₁ l₂ : List α) (a : α) {n : Nat} (h : l₁.length = n) :
    (l₁ ++ a :: l₂)[n]? = some a := by
  rw [← h, List.getElem?_append_right (Nat.le_refl _), Nat.sub_self, List.getElem?_cons_zero]

theorem any_cite_eq_false {l : List (Unnamed3 O)} (plain : ∀ u ∈ l, u.cite = ⟨false, false⟩)
    {g : Cite → Bool} (hg : g ⟨false, false⟩ = false) (i : Nat) :
    l[i]?.any (fun u => g u.cite) = false := by
  cases h : l[i]? with
  | none => rfl
  | some u => simp [plain u (List.getElem?_mem h), hg]

theorem groupEntry_plain (X M R : List (Unnamed3 O)) (y z : Unnamed3 O) (seen : Bool)
    (oix ix : Nat) (hoix : X.length = oix) (hix : X.length + 1 + M.length = ix)
    (plain : ∀ u ∈ X ++ y :: (M ++ z :: R), u.cite = ⟨false, false⟩) :
    groupEntry ix (X ++ y :: (M ++ z :: R)) oix seen =
      (X ++ (if seen then y else { y with isFirst := true }) ::
        { z with shouldCollapse := true } :: (M ++ R), (X.length + 1, true)) := by
  subst hoix hix
  have noAffix : ∀ g : Cite → Bool, g ⟨false, false⟩ = false → ∀ i,
      (X ++ y :: (M ++ z :: R))[i]?.any (fun u : Unnamed3 O => g u.cite) = false :=
    fun g hg => any_cite_eq_false plain hg
  unfold groupEntry
  rw [if_neg (by simp only [noAffix Cite.hasSuffix rfl, noAffix Cite.hasPrefix rfl,
    noAffix Cite.hasAffix rfl]; decide), if_pos (by omega)]
  have marked : (if !seen then (X ++ y :: (M ++ z :: R)).modify (fun u => { u with isFirst := true })
      X.length else X ++ y :: (M ++ z :: R)) =
      (X ++ [if seen then y else { y with isFirst := true }]) ++ M ++ z :: R := by
    cases seen <;> simp [modify_append_length _ _ _ _ rfl]
  simp only [marked]
  rw [modify_append_length _ _ _ _ (by simp; omega), rotateSlice_append _ _ _ _ (by simp) (by simp)]
  simp

def joinedCites (pre : List (Unnamed3 O)) (c : Unnamed3 O) (A B rest : List (Unnamed3 O)) :
    List (Unnamed3 O) :=
  pre ++ (if A.isEmpty then c else { c with isFirst := true }) ::
    (A.map (fun u => { u with shouldCollapse := true }) ++ B ++ rest)

theorem joinedCites_other (pre A B R : List (Unnamed3 O)) (c u : Unnamed3 O) :
    joinedCites pre c A B (u :: R) = joinedCites pre c A (B ++ [u]) R := by
  simp [joinedCites]

theorem joinedCites_getElem? (pre A B R : List (Unnamed3 O)) (c u : Unnamed3 O) :
    (joinedCites pre c A B (u :: R))[pre.length + 1 + A.length + B.length]? = some u := by
  rw [joinedCites, ← List.cons_append, ← List.append_assoc]
  exact getElem?_append_cons _ _ _ (by simp; omega)

theorem joinedCites_plain {pre A B R : List (Unnamed3 O)} {c : Unnamed3 O}
    (plain : ∀ v ∈ pre ++ c :: (A ++ B ++ R), v.cite = ⟨false, false⟩) :
    ∀ v ∈ joinedCites pre c A B R, v.cite = ⟨false, false⟩ := by
  intro v hv
  simp only [joinedCites, List.mem_append, List.mem_cons, List.mem_map] at hv
  rcases hv with hv | rfl | (⟨w, hw, rfl⟩ | hv) | hv
  · exact plain v (by simp [hv])
  · split <;> exact plain c (by simp)
  · exact plain w (by simp [hw])
  all_goals exact plain v (by simp [hv])

theorem groupEntry_join (pre A B R : List (Unnamed3 O)) (c u : Unnamed3 O)
    (plain : ∀ v ∈ pre ++ c :: (A ++ B ++ u :: R), v.cite = ⟨false, false⟩) :
    groupEntry (pre.length + 1 + A.length + B.length) (joinedCites pre c A B (u :: R))
        (pre.length + A.length) (!A.isEmpty) =
      (joinedCites pre c (A ++ [u]) B R, (pre.length + A.length + 1, true)) := by
  have now := joinedCites_plain plain
  rcases List.eq_nil_or_concat A with rfl | ⟨A, v, rfl⟩
  · simp only [joinedCites, List.isEmpty_nil, if_true, List.map_nil, List.nil_append] at now ⊢
    simpa using groupEntry_plain pre B R c u false _ _ rfl rfl now
  · have grown : (A ++ [v]).isEmpty = false := by cases A <;> rfl
    simp only [joinedCites, grown, Bool.false_eq_true, if_false, Bool.not_false, List.map_append,
      List.map_cons, List.map_nil] at now ⊢
    have := groupEntry_plain (pre ++ { c with isFirst := true } ::
      A.map (fun u => { u with shouldCollapse := true })) B R { v with shouldCollapse := true } u true
      (pre.length + (A ++ [v]).length) (pre.length + 1 + (A ++ [v]).length + B.length)
      (by simp) (by simp; omega) (by simpa using now)
    simpa [grown] using this

theorem groupStep_of_none {cites : List (Unnamed3 O)} {ix : Nat} (m : String → Option (Nat × Bool))
    (h : cites[ix]?.bind (Unnamed3.nameKey render) = none) :
    groupStep render (cites, m) ix = (cites, m) := by
  simp [groupStep, h]

theorem groupStep_of_new {cites : List (Unnamed3 O)} {ix : Nat} {m : String → Option (Nat × Bool)}
    {b : String} (h : cites[ix]?.bind (Unnamed3.nameKey render) = some b) (hb : m b = none) :
    groupStep render (cites, m) ix = (cites, fun k => if k = b then some (ix, false) else m k) := by
  simp [groupStep, h, hb]

theorem groupStep_of_seen {cites : List (Unnamed3 O)} {ix : Nat} {m : String → Option (Nat × Bool)}
    {b : String} {oix : Nat} {seen : Bool} (h : cites[ix]?.bind (Unnamed3.nameKey render) = some b)
    (hb : m b = some (oix, seen)) :
    groupStep render (cites, m) ix = ((groupEntry ix cites oix seen).1,
      fun k => if k = b then some (groupEntry ix cites oix seen).2 else m k) := by
  simp [groupStep, h, hb]

def groupUpTo (cites : List (Unnamed3 O)) (ix : Nat) :
    List (Unnamed3 O) × (String → Option (Nat × Bool)) :=
  (List.range ix).foldl (groupStep render) (cites, fun _ => none)

theorem groupUpTo_succ (cites : List (Unnamed3 O)) (ix : Nat) :
    groupUpTo render cites (ix + 1) = groupStep render (groupUpTo render cites ix) ix := by
  rw [groupUpTo, List.range_succ, List.foldl_append]; rfl

theorem not_seen_of_once {S l : List (Unnamed3 O)} {u : Unnamed3 O} {b : String}
    (sub : (S ++ [u]).Sublist l) (once : l.countP (fun u => u.nameKey render = some b) ≤ 1)
    (hu : u.nameKey render = some b) : ¬ ∃ y ∈ S, y.nameKey render = some b := by
  rintro ⟨y, hy, hyb⟩
  have inS : 0 < S.countP (fun u => u.nameKey render = some b) :=
    List.countP_pos_iff.2 ⟨y, hy, by simpa using hyb⟩
  have := sub.countP_le (fun u => u.nameKey render = some b)
  simp only [List.countP_append, List.countP_singleton, hu, decide_True, if_true] at this
  omega

theorem groupUpTo_before (pre rest : List (Unnamed3 O)) (a : String)
    (first : ∀ u ∈ pre, u.nameKey render ≠ some a)
    (once : ∀ b, b ≠ a → (pre ++ rest).countP (fun u => u.nameKey render = some b) ≤ 1) :
    ∀ ix, ix ≤ pre.length → (groupUpTo render (pre ++ rest) ix).1 = pre ++ rest ∧
      (groupUpTo render (pre ++ rest) ix).2 a = none ∧
      ∀ b, (groupUpTo render (pre ++ rest) ix).2 b ≠ none →
        ∃ y ∈ pre.take ix, y.nameKey render = some b
  | 0, _ => ⟨rfl, rfl, fun _ h => absurd rfl h⟩
  | ix + 1, h => by
    obtain ⟨same, noA, seen⟩ := groupUpTo_before pre rest a first once ix (by omega)
    have hix : ix < pre.length := by omega
    have here : (pre ++ rest)[ix]? = some pre[ix] := by simp [List.getElem?_append_left hix, hix]
    have upTo : pre.take ix ++ [pre[ix]] = pre.take (ix + 1) := by
      rw [← List.concat_eq_append, List.take_concat_get]
    have grow : ∀ b, (∃ y ∈ pre.take ix, y.nameKey render = some b) →
        ∃ y ∈ pre.take (ix + 1), y.nameKey render = some b :=
      fun b ⟨y, hy, hyb⟩ => ⟨y, upTo ▸ List.mem_append_left _ hy, hyb⟩
    rw [groupUpTo_succ]
    rcases hst : groupUpTo render (pre ++ rest) ix with ⟨cites, m⟩
    simp only [hst] at same noA seen
    subst same
    cases hk : pre[ix].nameKey render with
    | none =>
      rw [groupStep_of_none render m (by simp [here, hk])]
      exact ⟨rfl, noA, fun b hb => grow b (seen b hb)⟩
    | some b =>
      have hba : b ≠ a := fun e => first _ (List.getElem_mem hix) (e ▸ hk)
      have fresh : m b = none := Decidable.of_not_not fun hb =>
        not_seen_of_once render (upTo ▸ (List.take_sublist _ _).trans (List.sublist_append_left _ _))
          (once b hba) hk (seen b hb)
      rw [groupStep_of_new render (by simp [here, hk]) fresh]
      refine ⟨rfl, by simp [hba.symm, noA], fun k hk' => ?_⟩
      by_cases e : k = b
      · exact ⟨pre[ix], upTo ▸ List.mem_append_right _ (List.mem_singleton_self _), e ▸ hk⟩
      · simp only [e, if_false] at hk'
        exact grow k (seen k hk')

theorem groupUpTo_after (pre post : List (Unnamed3 O)) (c : Unnamed3 O) (a : String)
    (plain : ∀ u ∈ pre ++ c :: post, u.cite = ⟨false, false⟩)
    (first : ∀ u ∈ pre, u.nameKey render ≠ some a) (hc : c.nameKey render = some a)
    (once : ∀ b, b ≠ a → (pre ++ c :: post).countP (fun u => u.nameKey render = some b) ≤ 1) :
    ∀ t, t ≤ post.length →
      (groupUpTo render (pre ++ c :: post) (pre.length + 1 + t)).1 =
        joinedCites pre c ((post.take t).filter fun u => u.nameKey render = some a)
          ((post.take t).filter fun u => u.nameKey render ≠ some a) (post.drop t) ∧
      (groupUpTo render (pre ++ c :: post) (pre.length + 1 + t)).2 a =
        some (pre.length + ((post.take t).filter fun u => u.nameKey render = some a).length,
          !((post.take t).filter fun u => u.nameKey render = some a).isEmpty) ∧
      ∀ b, b ≠ a → (groupUpTo render (pre ++ c :: post) (pre.length + 1 + t)).2 b ≠ none →
        ∃ y ∈ pre ++ post.take t, y.nameKey render = some b
  | 0, _ => by
    obtain ⟨same, noA, seen⟩ := groupUpTo_before render pre (c :: post) a first once pre.length le_rfl
    rw [Nat.add_zero, groupUpTo_succ]
    rcases hst : groupUpTo render (pre ++ c :: post) pre.length with ⟨cites, m⟩
    simp only [hst] at same noA seen
    subst same
    rw [groupStep_of_new render (by rw [getElem?_append_cons _ _ _ rfl]; exact hc) noA]
    refine ⟨by simp [joinedCites], by simp, fun b hba hb => ?_⟩
    simp only [hba, if_false] at hb
    simpa using seen b hb
  | t + 1, ht => by
    obtain ⟨shape, atA, seen⟩ := groupUpTo_after pre post c a plain first hc once t (by omega)
    have htl : t < post.length := by omega
    have drop_t : post.drop t = post[t] :: post.drop (t + 1) := List.drop_eq_getElem_cons htl
    have take_t : post.take (t + 1) = post.take t ++ [post[t]] := by
      rw [← List.concat_eq_append, List.take_concat_get]
    have lenAB := List.length_eq_length_filter_add (l := post.take t)
      (fun u => decide (u.nameKey render = some a))
    have passed : ∀ v ∈ pre ++ c :: ((post.take t).filter (fun u => u.nameKey render = some a) ++
        (post.take t).filter (fun u => u.nameKey render ≠ some a) ++ post.drop t),
        v.cite = ⟨false, false⟩ := by
      refine fun v hv => plain v ?_
      simp only [List.mem_append, List.mem_cons, List.mem_filter] at hv ⊢
      rcases hv with hv | hv | (⟨hv, -⟩ | ⟨hv, -⟩) | hv
      exacts [.inl hv, .inr (.inl hv), .inr (.inr (List.mem_of_mem_take hv)),
        .inr (.inr (List.mem_of_mem_take hv)), .inr (.inr (List.mem_of_mem_drop hv))]
    generalize hA : (post.take t).filter (fun u => u.nameKey render = some a) = A
      at shape atA lenAB passed
    generalize hB : (post.take t).filter (fun u => u.nameKey render ≠ some a) = B at shape passed
    simp only [List.length_take_of_le htl.le, Bool.not_eq_true', decide_not, ← decide_not, hB] at lenAB
    rw [show pre.length + 1 + (t + 1) = pre.length + 1 + t + 1 by omega, groupUpTo_succ]
    rcases hst : groupUpTo render (pre ++ c :: post) (pre.length + 1 + t) with ⟨L, m⟩
    simp only [hst] at shape atA seen
    rw [drop_t] at shape passed
    subst shape
    have keyAt : (joinedCites pre c A B (post[t] :: post.drop (t + 1)))[pre.length + 1 + t]?.bind
        (Unnamed3.nameKey render) = post[t].nameKey render := by
      rw [show pre.length + 1 + t = pre.length + 1 + A.length + B.length by omega,
        joinedCites_getElem?]; rfl
    have sub : (pre ++ post.take t ++ [post[t]]).Sublist (pre ++ c :: post) := by
      rw [List.append_assoc, ← take_t]
      exact ((List.take_sublist _ _).cons c).append_left pre
    have grow : ∀ {b}, (∃ y ∈ pre ++ post.take t, y.nameKey render = some b) →
        ∃ y ∈ pre ++ (post.take t ++ [post[t]]), y.nameKey render = some b :=
      fun ⟨y, hy, hyb⟩ => ⟨y, by rw [← List.append_assoc]; exact List.mem_append_left _ hy, hyb⟩
    rw [take_t, List.filter_append, List.filter_append, hA, hB]
    by_cases member : post[t].nameKey render = some a
    · simp only [List.filter_cons, List.filter_nil, member, ne_eq, not_true_eq_false, decide_True,
        decide_False, if_true, Bool.false_eq_true, if_false, List.append_nil]
      rw [groupStep_of_seen render (keyAt.trans member) atA,
        show pre.length + 1 + t = pre.length + 1 + A.length + B.length by omega,
        groupEntry_join pre A B _ c post[t] passed]
      refine ⟨rfl, by simp; omega, fun b hba hb => ?_⟩
      simp only [hba, if_false] at hb
      exact grow (seen b hba hb)
    · simp only [List.filter_cons, List.filter_nil, member, ne_eq, not_false_eq_true, decide_True,
        decide_False, if_true, Bool.false_eq_true, if_false, List.append_nil]
      cases hk : post[t].nameKey render with
      | none =>
        rw [groupStep_of_none render m (keyAt.trans hk), joinedCites_other]
        exact ⟨rfl, atA, fun b hba hb => grow (seen b hba hb)⟩
      | some b =>
        have hba : b ≠ a := fun e => member (e ▸ hk)
        have fresh : m b = none := Decidable.of_not_not fun hb =>
          not_seen_of_once render sub (once b hba) hk (seen b hba hb)
        rw [groupStep_of_new render (keyAt.trans hk) fresh, joinedCites_other]
        refine ⟨rfl, by simp [hba.symm, atA], fun k hka hk' => ?_⟩
        by_cases e : k = b
        · exact ⟨post[t], List.mem_append_right _ (List.mem_append_right _ (List.mem_singleton_self _)),
            e ▸ hk⟩
        · simp only [e, if_false] at hk'
          exact grow (seen k hka hk')

theorem groupByName_eq_joinedCites (pre post : List (Unnamed3 O)) (c : Unnamed3 O) (a : String)
    (plain : ∀ u ∈ pre ++ c :: post, u.cite = ⟨false, false⟩)
    (first : ∀ u ∈ pre, u.nameKey render ≠ some a) (hc : c.nameKey render = some a)
    (once : ∀ b, b ≠ a → (pre ++ c :: post).countP (fun u => u.nameKey render = some b) ≤ 1) :
    groupByName render (pre ++ c :: post) =
      joinedCites pre c (post.filter fun u => u.nameKey render = some a)
        (post.filter fun u => u.nameKey render ≠ some a) [] := by
  have whole := (groupUpTo_after render pre post c a plain first hc once post.length le_rfl).1
  rw [List.take_length, List.drop_length] at whole
  rw [groupByName, show (pre ++ c :: post).length = pre.length + 1 + post.length by simp; omega]
  exact whole

theorem isEmpty_filter {α : Type} (p : α → Bool) (l : List α) :
    (l.filter p).isEmpty = !l.any p := by
  rw [Bool.eq_iff_iff]; simp [List.isEmpty_iff, List.filter_eq_nil_iff]

/-- With one name repeated among cites without affixes, grouping pulls the name's later
cites up behind its first, in order and marked to collapse, marks the first as a group's
first when the group has grown, and leaves every other cite in its order. -/
theorem groupByName_one_name (pre post : List (Unnamed3 O)) (c : Unnamed3 O) (a : String)
    (plain : ∀ u ∈ pre ++ c :: post, u.cite = ⟨false, false⟩)
    (first : ∀ u ∈ pre, u.nameKey render ≠ some a) (hc : c.nameKey render = some a)
    (once : ∀ b, b ≠ a → (pre ++ c :: post).countP (fun u => u.nameKey render = some b) ≤ 1) :
    groupByName render (pre ++ c :: post) =
      pre ++ (if post.any (fun u => u.nameKey render = some a) then { c with isFirst := true } else c) ::
        ((post.filter fun u => u.nameKey render = some a).map
            (fun u => { u with shouldCollapse := true }) ++
          post.filter fun u => u.nameKey render ≠ some a) := by
  rw [groupByName_eq_joinedCites render pre post c a plain first hc once, joinedCites,
    isEmpty_filter, List.append_nil]
  cases post.any (fun u => u.nameKey render = some a) <;> rfl

theorem oneRepeatedName_once : ∀ b, b ≠ "A" → ([namedCite 0 "B"] ++ namedCite 1 "A" ::
    [namedCite 2 "C", namedCite 3 "A"]).countP (fun u => u.nameKey renderLeaf = some b) ≤ 1 := by
  intro b hb
  have key : ∀ n s, (namedCite n s).nameKey renderLeaf = some s := fun _ _ => rfl
  by_cases e : b = "B"
  · subst e; simp [List.countP_cons, key]
  · simp [List.countP_cons, key, Ne.symm e, Ne.symm hb]
    split <;> omega

theorem oneRepeatedName_groupByName :
    ((∀ u ∈ [namedCite 0 "B"] ++ namedCite 1 "A" :: [namedCite 2 "C", namedCite 3 "A"],
        u.cite = ⟨false, false⟩) ∧
      (∀ u ∈ [namedCite 0 "B"], u.nameKey renderLeaf ≠ some "A") ∧
      (namedCite 1 "A").nameKey renderLeaf = some "A" ∧
      ∀ b, b ≠ "A" → ([namedCite 0 "B"] ++ namedCite 1 "A" :: [namedCite 2 "C", namedCite 3 "A"]).countP
        (fun u => u.nameKey renderLeaf = some b) ≤ 1) ∧
    groupByName renderLeaf ([namedCite 0 "B"] ++ namedCite 1 "A" :: [namedCite 2 "C", namedCite 3 "A"]) =
      [namedCite 0 "B", { namedCite 1 "A" with isFirst := true },
        { namedCite 3 "A" with shouldCollapse := true }, namedCite 2 "C"] :=
  ⟨⟨by decide, by decide, rfl, oneRepeatedName_once⟩,
    (groupByName_one_name renderLeaf [namedCite 0 "B"] [namedCite 2 "C", namedCite 3 "A"]
      (namedCite 1 "A") "A" (by decide) (by decide) rfl oneRepeatedName_once).trans rfl⟩

end Grouping

/-- The `CitationNumber` preparation: the first cite heads everything. -/
def markAllCollapse : List (Unnamed3 O) → List (Unnamed3 O)
  | [] => []
  | first :: rest =>
    { first with isFirst := true } :: rest.map fun r => { r with shouldCollapse := true }

/-- One iteration of the `CitationNumber` loop: a group's first collects the citation
numbers of the cites that follow it, which vanish. `none` is a panic in
`collapse_ranges`. -/
def cnumStep (p : Profile) (cites : Option (List (Unnamed3 O))) (ix : Nat) :
    Option (List (Unnamed3 O)) := do
  let cites ← cites
  match cites[ix]? with
  | none => pure cites
  | some u =>
    if u.isFirst then
      let rest := cites.drop (ix + 1)
      let following := rest.takeWhile (·.shouldCollapse)
      let cnums := (u.cnum.map (⟨·, ix⟩)).toList ++
        following.enum.filterMap fun (nix, c) => c.cnum.map (⟨·, ix + nix + 1⟩)
      let ranges ← collapseRanges p cnums
      let cites := cites.take (ix + 1) ++ following.map (fun c => { c with vanished := true }) ++
        rest.drop following.length
      pure (cites.modify (fun u => { u with collapsedRanges := ranges }) ix)
    else pure cites

/-- What the year collapse does to a following cite: suppress its names, and its year
unless the collapse is by year alone. -/
def suppressFollowing (suppressYear : Bool) (c : Unnamed3 O) : Unnamed3 O :=
  let ir := c.gen4.suppressNames
  { c with gen4 := if suppressYear then ir.suppressYear else ir }

/-- The `while ix < cites.len()` loop of the year collapses, one unit of fuel per
iteration; every iteration moves `ix` on. -/
def yearCollapseLoop (suppressYear : Bool) : Nat → List (Unnamed3 O) → Nat → List (Unnamed3 O)
  | 0, cites, _ => cites
  | fuel + 1, cites, ix =>
    if h : ix < cites.length then
      if cites[ix].isFirst then
        let rest := cites.drop (ix + 1)
        let following := rest.takeWhile (·.shouldCollapse)
        let cites := cites.take (ix + 1) ++ following.map (suppressFollowing suppressYear) ++
          rest.drop following.length
        yearCollapseLoop suppressYear fuel cites (ix + following.length + 1)
      else yearCollapseLoop suppressYear fuel cites (ix + 1)
    else cites

theorem length_takeWhile_le {α : Type} (p : α → Bool) (l : List α) :
    (l.takeWhile p).length ≤ l.length :=
  (List.takeWhile_prefix p).length_le

/-- `group_and_collapse`; `none` is a panic of the `CitationNumber` collapse. -/
def groupAndCollapse (render : IR O → Option String) (p : Profile) (collapse : Option Collapse)
    (cites : List (Unnamed3 O)) : Option (List (Unnamed3 O)) :=
  let cites := groupByName render cites
  let cites := if collapse = some .citationNumber then markAllCollapse cites else cites
  match collapse with
  | some .citationNumber => (List.range cites.length).foldl (cnumStep p) (some cites)
  | some .year => some (yearCollapseLoop false cites.length cites 0)
  | some .yearSuffix | some .yearSuffixRanged => some (yearCollapseLoop true cites.length cites 0)
  | none => some cites

theorem interleavedCites_groupByName :
    ("A" ≠ "B" ∧ (namedCite 0 "A").nameKey renderLeaf = some "A" ∧
      (namedCite 1 "B").nameKey renderLeaf = some "B" ∧
      (namedCite 2 "A").nameKey renderLeaf = some "A" ∧
      (namedCite 3 "B").nameKey renderLeaf = some "B" ∧
      ∀ u ∈ [namedCite 0 "A", namedCite 1 "B", namedCite 2 "A", namedCite 3 "B"],
        u.cite = ⟨false, false⟩) ∧
    groupByName renderLeaf [namedCite 0 "A", namedCite 1 "B", namedCite 2 "A", namedCite 3 "B"] =
      [{ namedCite 0 "A" with isFirst := true },
        { namedCite 2 "A" with shouldCollapse := true, isFirst := true },
        { namedCite 3 "B" with shouldCollapse := true }, namedCite 1 "B"] ∧
    (groupAndCollapse renderLeaf .release (some .year)
        [namedCite 0 "A", namedCite 1 "B", namedCite 2 "A", namedCite 3 "B"]).map
      (List.map fun u => (u.cnum, u.nameKey renderLeaf)) =
      some [(some 0, some "A"), (some 2, none), (some 3, none), (some 1, some "B")] :=
  ⟨⟨by decide, rfl, rfl, rfl, rfl, by decide⟩,
    groupByName_interleaved renderLeaf _ _ _ _ "A" "B" (by decide) rfl rfl rfl rfl (by decide),
    by decide⟩

end Transforms

end Citeproc
