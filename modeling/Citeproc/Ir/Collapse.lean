import Citeproc.Ir.Grouping

/-!
The collapse phase of `group_and_collapse` over whole runs.
-/
namespace Citeproc

namespace Transforms

variable {O : OutputFormat}

def CollapsesBehindFirst (cites : List (Unnamed3 O)) (i : Nat) : Prop :=
  ∃ j, j < i ∧ cites[j]?.any (·.isFirst) ∧
    ∀ k, k < i + 1 → j < k → cites[k]?.any (·.shouldCollapse)

instance (cites : List (Unnamed3 O)) (i : Nat) : Decidable (CollapsesBehindFirst cites i) :=
  inferInstanceAs (Decidable (∃ j, j < i ∧ cites[j]?.any (fun u : Unnamed3 O => u.isFirst) ∧
    ∀ k, k < i + 1 → j < k → cites[k]?.any (fun u : Unnamed3 O => u.shouldCollapse)))

/-- The year collapse as one pass from the left: a cite is suppressed when it collapses
and the cite before it is a group's first or is suppressed itself (`behind`). -/
def collapseRun (suppressYear : Bool) : Bool → List (Unnamed3 O) → List (Unnamed3 O)
  | _, [] => []
  | behind, c :: cs =>
    (if behind && c.shouldCollapse then suppressFollowing suppressYear c else c) ::
      collapseRun suppressYear (c.isFirst || behind && c.shouldCollapse) cs

theorem drop_length_takeWhile {α : Type} (p : α → Bool) (l : List α) :
    l.drop (l.takeWhile p).length = l.dropWhile p :=
  (congrArg (List.drop (l.takeWhile p).length) (List.takeWhile_append_dropWhile p l).symm).trans
    (List.drop_left _ _)

theorem collapseRun_behind (suppressYear : Bool) (l : List (Unnamed3 O)) :
    collapseRun suppressYear true l =
      (l.takeWhile (·.shouldCollapse)).map (suppressFollowing suppressYear) ++
        collapseRun suppressYear false (l.dropWhile (·.shouldCollapse)) := by
  induction l with
  | nil => rfl
  | cons c l ih => cases h : c.shouldCollapse <;> simp [collapseRun, h, ih]

theorem yearCollapseLoop_eq_collapseRun (suppressYear : Bool) :
    ∀ (fuel : Nat) (cites : List (Unnamed3 O)) (ix : Nat), cites.length - ix ≤ fuel →
      yearCollapseLoop suppressYear fuel cites ix =
        cites.take ix ++ collapseRun suppressYear false (cites.drop ix)
  | 0, cites, ix, h => by
    simp [yearCollapseLoop, List.drop_of_length_le (show cites.length ≤ ix by omega),
      List.take_of_length_le (show cites.length ≤ ix by omega), collapseRun]
  | fuel + 1, cites, ix, h => by
    unfold yearCollapseLoop
    split
    · rename_i hix
      have here : cites.drop ix = cites[ix] :: cites.drop (ix + 1) := List.drop_eq_getElem_cons hix
      have upTo : cites.take (ix + 1) = cites.take ix ++ [cites[ix]] := by
        rw [List.take_succ, List.getElem?_eq_getElem hix]; rfl
      split
      · rename_i first
        have hl := length_takeWhile_le (·.shouldCollapse) (cites.drop (ix + 1))
        have front : (cites.take (ix + 1) ++
            ((cites.drop (ix + 1)).takeWhile (·.shouldCollapse)).map (suppressFollowing suppressYear)).length =
            ix + ((cites.drop (ix + 1)).takeWhile (·.shouldCollapse)).length + 1 := by
          simp only [List.length_append, List.length_map, List.length_take]
          omega
        rw [yearCollapseLoop_eq_collapseRun suppressYear fuel _ _ (by
          simp only [List.length_append, List.length_map, List.length_take, List.length_drop] at hl ⊢
          omega), List.take_left' front, List.drop_left' front, drop_length_takeWhile, here,
          collapseRun, upTo]
        simp only [Bool.false_and, Bool.false_eq_true, if_false, Bool.or_false, first,
          collapseRun_behind, List.append_assoc, List.singleton_append, List.cons_append,
          List.nil_append]
      · rename_i notFirst
        rw [yearCollapseLoop_eq_collapseRun suppressYear fuel _ _ (by omega), here, collapseRun, upTo]
        simp only [Bool.false_and, Bool.false_eq_true, if_false, Bool.or_false,
          Bool.eq_false_iff.2 notFirst, List.append_assoc, List.singleton_append]
    · simp [List.drop_of_length_le (show cites.length ≤ ix by omega),
        List.take_of_length_le (show cites.length ≤ ix by omega), collapseRun]

theorem forall_lt_succ_cons (c : Unnamed3 O) (cs : List (Unnamed3 O)) (i : Nat) :
    (∀ k, k < i + 1 + 1 → (c :: cs)[k]?.any (·.shouldCollapse)) ↔
      c.shouldCollapse ∧ ∀ k, k < i + 1 → cs[k]?.any (·.shouldCollapse) := by
  constructor
  · intro h
    exact ⟨by simpa using h 0 (by omega), fun k hk => by simpa using h (k + 1) (by omega)⟩
  · rintro ⟨hc, hcs⟩ (_ | k) hk
    · simpa using hc
    · simpa using hcs k (by omega)

theorem collapsesBehindFirst_cons (c : Unnamed3 O) (cs : List (Unnamed3 O)) (i : Nat) :
    CollapsesBehindFirst (c :: cs) (i + 1) ↔
      (c.isFirst ∧ ∀ k, k < i + 1 → cs[k]?.any (·.shouldCollapse)) ∨ CollapsesBehindFirst cs i := by
  constructor
  · rintro ⟨_ | j, hj, hf, hs⟩
    · exact .inl ⟨by simpa using hf, fun k hk => by simpa using hs (k + 1) (by omega) (by omega)⟩
    · exact .inr ⟨j, by omega, by simpa using hf, fun k hk hjk => by
        simpa using hs (k + 1) (by omega) (by omega)⟩
  · rintro (⟨hf, hs⟩ | ⟨j, hj, hf, hs⟩)
    · refine ⟨0, by omega, by simpa using hf, fun k hk h0 => ?_⟩
      obtain ⟨k, rfl⟩ := Nat.exists_eq_add_of_lt h0
      simpa using hs k (by omega)
    · refine ⟨j + 1, by omega, by simpa using hf, fun k hk hjk => ?_⟩
      obtain ⟨k, rfl⟩ := Nat.exists_eq_add_of_lt (show 0 < k by omega)
      simpa using hs k (by omega) (by omega)

theorem collapseRun_getElem? (suppressYear : Bool) :
    ∀ (behind : Bool) (l : List (Unnamed3 O)) (i : Nat),
      (collapseRun suppressYear behind l)[i]? = l[i]?.map fun c =>
        if (behind = true ∧ ∀ k, k < i + 1 → l[k]?.any (·.shouldCollapse)) ∨
            CollapsesBehindFirst l i
        then suppressFollowing suppressYear c else c
  | _, [], _ => rfl
  | behind, c :: cs, 0 => by
    have none : ¬ CollapsesBehindFirst (c :: cs) 0 := fun ⟨_, h, _⟩ => Nat.not_lt_zero _ h
    simp [collapseRun, none]
  | behind, c :: cs, i + 1 => by
    have cond : ((behind = true ∧ ∀ k, k < i + 1 + 1 → (c :: cs)[k]?.any (·.shouldCollapse)) ∨
          CollapsesBehindFirst (c :: cs) (i + 1)) ↔
        ((c.isFirst || behind && c.shouldCollapse) = true ∧
          ∀ k, k < i + 1 → cs[k]?.any (·.shouldCollapse)) ∨ CollapsesBehindFirst cs i := by
      rw [forall_lt_succ_cons, collapsesBehindFirst_cons]
      simp only [Bool.or_eq_true, Bool.and_eq_true]
      tauto
    rw [collapseRun, List.getElem?_cons_succ, collapseRun_getElem?, List.getElem?_cons_succ]
    simp only [cond]

theorem yearCollapseLoop_getElem? (suppressYear : Bool) (cites : List (Unnamed3 O)) (i : Nat) :
    (yearCollapseLoop suppressYear cites.length cites 0)[i]? = cites[i]?.map fun u =>
      if CollapsesBehindFirst cites i then suppressFollowing suppressYear u else u := by
  rw [yearCollapseLoop_eq_collapseRun suppressYear cites.length cites 0 (by omega),
    List.take_zero, List.drop_zero, List.nil_append, collapseRun_getElem?]
  simp

/-- The year collapses suppress, among the grouped cites, exactly those that follow a
group's first through collapsing cites only, each once: their names, and their years
unless the collapse is by year alone. Every other cite is left as grouping left it. -/
theorem groupAndCollapse_yearCollapse (render : IR O → Option String) (p : Profile)
    (collapse : Collapse) (byYear : collapse ≠ .citationNumber) (cites : List (Unnamed3 O)) :
    ∃ result, groupAndCollapse render p (some collapse) cites = some result ∧
      ∀ i, result[i]? = (groupByName render cites)[i]?.map fun u =>
        if CollapsesBehindFirst (groupByName render cites) i
        then suppressFollowing (collapse != .year) u else u := by
  cases collapse with
  | citationNumber => exact absurd rfl byYear
  | year => exact ⟨_, rfl, yearCollapseLoop_getElem? false _⟩
  | yearSuffix => exact ⟨_, rfl, yearCollapseLoop_getElem? true _⟩
  | yearSuffixRanged => exact ⟨_, rfl, yearCollapseLoop_getElem? true _⟩

def interleavedCites : List (Unnamed3 plainText) :=
  [namedCite 0 "A", namedCite 1 "B", namedCite 2 "A", namedCite 3 "B"]

theorem interleavedCites_yearCollapse :
    Collapse.year ≠ .citationNumber ∧
      ∃ result, groupAndCollapse renderLeaf .release (some .year) interleavedCites = some result ∧
        ∀ i, result[i]? = (groupByName renderLeaf interleavedCites)[i]?.map fun u =>
          if CollapsesBehindFirst (groupByName renderLeaf interleavedCites) i
          then suppressFollowing (Collapse.year != .year) u else u :=
  ⟨by decide, groupAndCollapse_yearCollapse renderLeaf .release .year (by decide) interleavedCites⟩

theorem collapseRun_fresh (suppressYear : Bool) :
    ∀ (behind : Bool) (l : List (Unnamed3 O)), (∀ u ∈ l, u.isFirst = false ∧ u.shouldCollapse = false) →
      collapseRun suppressYear behind l = l
  | _, [], _ => rfl
  | behind, c :: l, fresh => by
    obtain ⟨f, s⟩ := fresh c (List.mem_cons_self _ _)
    simp [collapseRun, f, s, collapseRun_fresh suppressYear false l fun u hu => fresh u (List.mem_cons_of_mem _ hu)]

theorem collapseRun_append_of_not_first (suppressYear : Bool) (l₂ : List (Unnamed3 O)) :
    ∀ l₁ : List (Unnamed3 O), (∀ u ∈ l₁, u.isFirst = false) →
      collapseRun suppressYear false (l₁ ++ l₂) = l₁ ++ collapseRun suppressYear false l₂
  | [], _ => rfl
  | c :: l, h => by
    simp [collapseRun, h c (List.mem_cons_self _ _),
      collapseRun_append_of_not_first suppressYear l₂ l fun u hu => h u (List.mem_cons_of_mem _ hu)]

theorem collapseRun_collapsing (suppressYear : Bool) (B : List (Unnamed3 O))
    (fresh : ∀ u ∈ B, u.isFirst = false ∧ u.shouldCollapse = false) :
    ∀ M : List (Unnamed3 O), (∀ u ∈ M, u.shouldCollapse) →
      collapseRun suppressYear true (M ++ B) = M.map (suppressFollowing suppressYear) ++ B
  | [], _ => collapseRun_fresh suppressYear true B fresh
  | m :: M, h => by
    simp [collapseRun, h m (List.mem_cons_self _ _),
      collapseRun_collapsing suppressYear B fresh M fun u hu => h u (List.mem_cons_of_mem _ hu)]

theorem groupAndCollapse_byYear (render : IR O → Option String) (p : Profile) (collapse : Collapse)
    (byYear : collapse ≠ .citationNumber) (cites : List (Unnamed3 O)) :
    groupAndCollapse render p (some collapse) cites =
      some (collapseRun (collapse != .year) false (groupByName render cites)) := by
  have run : ∀ sy, yearCollapseLoop sy (groupByName render cites).length (groupByName render cites) 0 =
      collapseRun sy false (groupByName render cites) := fun sy => by
    rw [yearCollapseLoop_eq_collapseRun sy _ _ 0 (by omega), List.take_zero, List.drop_zero, List.nil_append]
  cases collapse with
  | citationNumber => exact absurd rfl byYear
  | year => exact congrArg some (run false)
  | yearSuffix => exact congrArg some (run true)
  | yearSuffixRanged => exact congrArg some (run true)

/-- The year collapses end to end, with one name `a` repeated among fresh cites without
affixes: the later cites of the name stand behind its first with their names suppressed, and
their years too unless the collapse is by year alone; every other cite is kept, in order. -/
theorem groupAndCollapse_one_name (render : IR O → Option String) (p : Profile)
    (collapse : Collapse) (byYear : collapse ≠ .citationNumber)
    (pre post : List (Unnamed3 O)) (c : Unnamed3 O) (a : String)
    (fresh : ∀ u ∈ pre ++ c :: post, u.isFirst = false ∧ u.shouldCollapse = false)
    (plain : ∀ u ∈ pre ++ c :: post, u.cite = ⟨false, false⟩)
    (first : ∀ u ∈ pre, u.nameKey render ≠ some a) (hc : c.nameKey render = some a)
    (once : ∀ b, b ≠ a → (pre ++ c :: post).countP (fun u => u.nameKey render = some b) ≤ 1) :
    groupAndCollapse render p (some collapse) (pre ++ c :: post) =
      some (pre ++
        (if post.any (fun u => u.nameKey render = some a) then { c with isFirst := true } else c) ::
          ((post.filter fun u => u.nameKey render = some a).map
              (fun u => suppressFollowing (collapse != .year) { u with shouldCollapse := true }) ++
            post.filter fun u => u.nameKey render ≠ some a)) := by
  have freshB : ∀ u ∈ post.filter (fun u => u.nameKey render ≠ some a),
      u.isFirst = false ∧ u.shouldCollapse = false :=
    fun u hu => fresh u (by simp [List.mem_of_mem_filter hu])
  rw [groupAndCollapse_byYear render p collapse byYear,
    groupByName_eq_joinedCites render pre post c a plain first hc once, joinedCites, List.append_nil,
    isEmpty_filter, collapseRun_append_of_not_first _ _ pre fun u hu => (fresh u (by simp [hu])).1]
  cases hany : post.any (fun u => u.nameKey render = some a)
  · have none : post.filter (fun u => u.nameKey render = some a) = [] := by
      simpa [List.filter_eq_nil_iff] using hany
    simp only [none, List.map_nil, List.nil_append, Bool.not_false, if_true, Bool.false_eq_true,
      if_false]
    rw [collapseRun_fresh _ false _ (List.forall_mem_cons.2 ⟨fresh c (by simp), freshB⟩)]
  · simp only [Bool.not_true, Bool.false_eq_true, if_false, collapseRun, Bool.false_and,
      Bool.true_or]
    rw [collapseRun_collapsing _ _ freshB _ fun u hu => by obtain ⟨w, -, rfl⟩ := List.mem_map.1 hu; rfl,
      List.map_map]
    rfl

theorem oneRepeatedName_yearSuffixCollapse :
    (Collapse.yearSuffix ≠ .citationNumber ∧
      (∀ u ∈ [namedCite 0 "B"] ++ namedCite 1 "A" :: [namedCite 2 "C", namedCite 3 "A"],
        u.isFirst = false ∧ u.shouldCollapse = false) ∧
      (∀ u ∈ [namedCite 0 "B"] ++ namedCite 1 "A" :: [namedCite 2 "C", namedCite 3 "A"],
        u.cite = ⟨false, false⟩) ∧
      (∀ u ∈ [namedCite 0 "B"], u.nameKey renderLeaf ≠ some "A") ∧
      (namedCite 1 "A").nameKey renderLeaf = some "A" ∧
      ∀ b, b ≠ "A" → ([namedCite 0 "B"] ++ namedCite 1 "A" :: [namedCite 2 "C", namedCite 3 "A"]).countP
        (fun u => u.nameKey renderLeaf = some b) ≤ 1) ∧
    groupAndCollapse renderLeaf .release (some .yearSuffix)
        ([namedCite 0 "B"] ++ namedCite 1 "A" :: [namedCite 2 "C", namedCite 3 "A"]) =
      some [namedCite 0 "B", { namedCite 1 "A" with isFirst := true },
        suppressFollowing true { namedCite 3 "A" with shouldCollapse := true }, namedCite 2 "C"] :=
  ⟨⟨by decide, by decide, by decide, by decide, rfl, oneRepeatedName_once⟩,
    (groupAndCollapse_one_name renderLeaf .release .yearSuffix (by decide) [namedCite 0 "B"]
      [namedCite 2 "C", namedCite 3 "A"] (namedCite 1 "A") "A" (by decide) (by decide) (by decide) rfl
      oneRepeatedName_once).trans rfl⟩

def cnumIxs (cites : List (Unnamed3 O)) : List CnumIx :=
  (cites.map (·.cnum)).enum.filterMap fun (ix, c) => c.map (⟨·, ix⟩)

def Unnamed3.source (u : Unnamed3 O) : Cite × Option UInt32 × IR O := (u.cite, u.cnum, u.gen4)

theorem foldl_cnumStep_none (p : Profile) (ixs : List Nat) :
    ixs.foldl (cnumStep p) (none : Option (List (Unnamed3 O))) = none := by
  induction ixs with
  | nil => rfl
  | cons ix ixs ih => exact ih

theorem map_cnum_filterMap_enumFrom (g : Nat → Nat) :
    ∀ (n : Nat) (l : List (Unnamed3 O)),
      ((l.enumFrom n).filterMap fun (nix, c) => c.cnum.map (⟨·, g nix⟩)).map CnumIx.cnum =
        l.filterMap (·.cnum)
  | _, [] => rfl
  | n, c :: l => by
    cases h : c.cnum <;>
      simp [List.enumFrom_cons, List.filterMap_cons, h, map_cnum_filterMap_enumFrom g (n + 1) l]

theorem cnumStep_zero (p : Profile) (u : Unnamed3 O) (rest : List (Unnamed3 O))
    (first : u.isFirst) (collapse : ∀ c ∈ rest, c.shouldCollapse) :
    cnumStep p (some (u :: rest)) 0 = (collapseRanges p (cnumIxs (u :: rest))).map fun ranges =>
      { u with collapsedRanges := ranges } :: rest.map fun c => { c with vanished := true } := by
  have following : rest.takeWhile (·.shouldCollapse) = rest := List.takeWhile_eq_self_iff.2 collapse
  have gathered : (u.cnum.map (⟨·, 0⟩)).toList ++
      rest.enum.filterMap (fun (nix, c) => c.cnum.map (⟨·, 0 + nix + 1⟩)) = cnumIxs (u :: rest) := by
    cases h : u.cnum <;>
      simp [cnumIxs, h, List.enum_cons, List.enumFrom_eq_map_enum, List.enum_map,
        List.filterMap_map, Function.comp_def, Nat.add_comm]
  simp only [cnumStep, List.getElem?_cons_zero, Option.pure_def, Option.bind_eq_bind,
    Option.some_bind]
  rw [if_pos first]
  simp only [List.drop_succ_cons, List.drop_zero, following]
  rw [gathered]
  cases collapseRanges p (cnumIxs (u :: rest)) <;> simp

theorem map_modify_of {α β : Type} (h : α → β) (g : α → α) (hg : ∀ a, h (g a) = h a) :
    ∀ (n : Nat) (l : List α), (l.modify g n).map h = l.map h
  | _, [] => by simp
  | 0, a :: l => by simp [hg]
  | n + 1, a :: l => by simp [map_modify_of h g hg n l]

theorem forall_mem_modify {α : Type} {P : α → Prop} (g : α → α) (hg : ∀ a, P a → P (g a)) :
    ∀ (n : Nat) (l : List α), (∀ a ∈ l, P a) → ∀ a ∈ l.modify g n, P a
  | _, [], _ => by simp
  | 0, a :: l, h => by
    simp only [List.modify_zero_cons, List.forall_mem_cons] at h ⊢
    exact ⟨hg a h.1, h.2⟩
  | n + 1, a :: l, h => by
    simp only [List.modify_succ_cons, List.forall_mem_cons] at h ⊢
    exact ⟨h.1, forall_mem_modify g hg n l h.2⟩

theorem mem_tail_of_suffix {α : Type} {l₁ l₂ : List α} (h : l₁ <:+ l₂) {x : α}
    (hx : x ∈ l₁.tail) : x ∈ l₂.tail := by
  obtain ⟨t, rfl⟩ := h
  cases t with
  | nil => exact hx
  | cons a t => exact List.mem_append_right _ (List.mem_of_mem_tail hx)

theorem cnumStep_behind (p : Profile) (f : Unnamed3 O) (T : List (Unnamed3 O)) (i : Nat)
    (behind : ∀ t ∈ T, t.shouldCollapse ∧ t.vanished)
    (ok : ∀ v ∈ ((f :: T).filterMap (·.cnum)).tail, p.pred v ≠ none) :
    ∃ T', cnumStep p (some (f :: T)) (i + 1) = some (f :: T') ∧
      T'.map Unnamed3.source = T.map Unnamed3.source ∧
      ∀ t ∈ T', t.shouldCollapse ∧ t.vanished := by
  cases hu : T[i]? with
  | none => exact ⟨T, by simp [cnumStep, hu], rfl, behind⟩
  | some u =>
    by_cases first : u.isFirst
    · have following : (T.drop (i + 1)).takeWhile (·.shouldCollapse) = T.drop (i + 1) :=
        List.takeWhile_eq_self_iff.2 fun t ht => (behind t (List.mem_of_mem_drop ht)).1
      have fromHere : T.drop i = u :: T.drop (i + 1) := by
        obtain ⟨hi, rfl⟩ := List.getElem?_eq_some_iff.1 hu
        exact List.drop_eq_getElem_cons hi
      obtain ⟨ranges, hr⟩ : ∃ ranges, collapseRanges p ((u.cnum.map (⟨·, i + 1⟩)).toList ++
          (T.drop (i + 1)).enum.filterMap fun (nix, c) => c.cnum.map (⟨·, i + 1 + nix + 1⟩)) =
          some ranges := by
        refine Option.ne_none_iff_exists'.1 fun panics => ?_
        obtain ⟨y, hy, hp⟩ := (collapseRanges_eq_none_iff _ _).1 panics
        have values : y.cnum ∈ ((T.drop i).filterMap (·.cnum)).tail := by
          have := List.mem_map_of_mem CnumIx.cnum hy
          rw [List.map_tail, List.map_append] at this
          cases h : u.cnum <;> simpa [h, fromHere, List.filterMap_cons, List.enum,
            map_cnum_filterMap_enumFrom (fun nix => i + 1 + nix + 1)] using this
        exact ok y.cnum (mem_tail_of_suffix
          (((List.drop_suffix i T).trans (List.suffix_cons f T)).filterMap _) values) hp
      refine ⟨(T.take (i + 1) ++ (T.drop (i + 1)).map fun c : Unnamed3 O => { c with vanished := true }).modify
        (fun v : Unnamed3 O => { v with collapsedRanges := ranges }) i, ?_, ?_, ?_⟩
      · simp only [cnumStep, List.getElem?_cons_succ, hu, Option.pure_def, Option.bind_eq_bind,
          Option.some_bind]
        rw [if_pos first]
        simp only [List.drop_succ_cons, following, hr, Option.some_bind, List.drop_length,
          List.append_nil, List.take_succ_cons, List.modify_succ_cons, List.cons_append]
      · rw [map_modify_of Unnamed3.source (fun v : Unnamed3 O => { v with collapsedRanges := ranges })
          (fun _ => rfl), List.map_append, List.map_map,
          show (Unnamed3.source ∘ fun c : Unnamed3 O => { c with vanished := true }) =
            Unnamed3.source from rfl, ← List.map_append, List.take_append_drop]
      · refine forall_mem_modify (fun v : Unnamed3 O => { v with collapsedRanges := ranges })
          (fun _ h => h) i _ fun t ht => ?_
        rcases List.mem_append.1 ht with ht | ht
        · exact behind t (List.mem_of_mem_take ht)
        · obtain ⟨c, hc, rfl⟩ := List.mem_map.1 ht
          exact ⟨(behind c (List.mem_of_mem_drop hc)).1, rfl⟩
    · exact ⟨T, by simp [cnumStep, hu, first], rfl, behind⟩

theorem filterMap_cnum_of_source {A B : List (Unnamed3 O)}
    (h : A.map Unnamed3.source = B.map Unnamed3.source) :
    A.filterMap (·.cnum) = B.filterMap (·.cnum) := by
  have := congrArg (List.filterMap fun s : Cite × Option UInt32 × IR O => s.2.1) h
  simpa [List.filterMap_map, Function.comp_def, Unnamed3.source] using this

theorem map_cnum_cnumIxs (cites : List (Unnamed3 O)) :
    (cnumIxs cites).map CnumIx.cnum = cites.filterMap (·.cnum) := by
  rw [cnumIxs, List.enum_map, List.filterMap_map]
  exact map_cnum_filterMap_enumFrom id 0 cites

theorem foldl_cnumStep_behind (p : Profile) (f : Unnamed3 O) :
    ∀ (ixs : List Nat) (T : List (Unnamed3 O)), (∀ ix ∈ ixs, 1 ≤ ix) →
      (∀ t ∈ T, t.shouldCollapse ∧ t.vanished) →
      (∀ v ∈ ((f :: T).filterMap (·.cnum)).tail, p.pred v ≠ none) →
      ∃ T', ixs.foldl (cnumStep p) (some (f :: T)) = some (f :: T') ∧
        T'.map Unnamed3.source = T.map Unnamed3.source ∧
        ∀ t ∈ T', t.shouldCollapse ∧ t.vanished
  | [], T, _, behind, _ => ⟨T, rfl, rfl, behind⟩
  | ix :: ixs, T, pos, behind, ok => by
    obtain ⟨i, rfl⟩ := Nat.exists_eq_add_of_le' (pos ix (List.mem_cons_self _ _))
    obtain ⟨T₁, step, sources₁, behind₁⟩ := cnumStep_behind p f T i behind ok
    have same : (f :: T₁).filterMap (·.cnum) = (f :: T).filterMap (·.cnum) := by
      simp only [List.filterMap_cons, filterMap_cnum_of_source sources₁]
    obtain ⟨T', fold, sources', behind'⟩ := foldl_cnumStep_behind p f ixs T₁
      (fun j hj => pos j (List.mem_cons_of_mem _ hj)) behind₁ (same ▸ ok)
    exact ⟨T', by rw [List.foldl_cons, step, fold], sources'.trans sources₁, behind'⟩

/-- Under `Collapse::CitationNumber` every cite collapses into the first: the first cite
of the grouped list carries the ranges of every citation number, each with its position;
every other cite vanishes; no cite is moved or rewritten; and the collapse panics exactly
when `collapse_ranges` panics on all the numbers at once. -/
theorem groupAndCollapse_citationNumber (render : IR O → Option String) (p : Profile)
    (cites : List (Unnamed3 O)) :
    (groupAndCollapse render p (some .citationNumber) cites).isSome =
        (collapseRanges p (cnumIxs (groupByName render cites))).isSome ∧
      ∀ result ∈ groupAndCollapse render p (some .citationNumber) cites,
        result.map Unnamed3.source = (groupByName render cites).map Unnamed3.source ∧
        (∀ u ∈ result.head?,
          some u.collapsedRanges = collapseRanges p (cnumIxs (groupByName render cites))) ∧
        ∀ u ∈ result.tail, u.vanished = true := by
  have run : groupAndCollapse render p (some .citationNumber) cites =
      (List.range (markAllCollapse (groupByName render cites)).length).foldl (cnumStep p)
        (some (markAllCollapse (groupByName render cites))) := rfl
  rw [run]
  generalize groupByName render cites = grouped
  cases grouped with
  | nil => simp [markAllCollapse, cnumIxs, collapseRanges]
  | cons g gs =>
    have numbers : cnumIxs (markAllCollapse (g :: gs)) = cnumIxs (g :: gs) := by
      simp [cnumIxs, markAllCollapse, Function.comp_def]
    rw [markAllCollapse, List.length_cons, List.length_map, List.range_succ_eq_map,
      List.foldl_cons, cnumStep_zero p _ _ rfl (by simp), ← markAllCollapse, numbers]
    cases hr : collapseRanges p (cnumIxs (g :: gs)) with
    | none => simp [foldl_cnumStep_none]
    | some ranges =>
      have ok : ∀ v ∈ (((g :: gs).filterMap (·.cnum))).tail, p.pred v ≠ none := by
        intro v hv hp
        rw [← map_cnum_cnumIxs, ← List.map_tail] at hv
        obtain ⟨y, hy, rfl⟩ := List.mem_map.1 hv
        exact Option.noConfusion (hr.symm.trans ((collapseRanges_eq_none_iff _ _).2 ⟨y, hy, hp⟩))
      obtain ⟨T', fold, sources, behind⟩ := foldl_cnumStep_behind p
        { g with isFirst := true, collapsedRanges := ranges } ((List.range gs.length).map Nat.succ)
        ((gs.map fun r => { r with shouldCollapse := true }).map fun c => { c with vanished := true })
        (by simp) (by simp)
        (by simpa [List.filterMap_cons, Function.comp_def] using ok)
      simp only [Option.map_some', fold, Option.isSome_some, Option.mem_def, Option.some.injEq,
        true_and]
      rintro _ rfl
      refine ⟨?_, by simp, fun u hu => (behind u hu).2⟩
      simp only [List.map_cons, sources, List.map_map]
      rfl

end Transforms

end Citeproc
