import Citeproc.Ir.Arena

/-!
The IR as `ir/transforms.rs` rewrites it, and what `suppress_year` blanks.
-/
namespace Citeproc

namespace Transforms

inductive IR (O : OutputFormat) where
  | rendered (e : Option (CiteEdgeData O.Build))
  | name (nir : NameIR O.Build) (ir : IR O)
  | conditionalDisamb (c : ConditionalDisambIR) (ir : IR O)
  | yearSuffix (ys : YearSuffix) (ir : IR O)
  | seq (s : IrSeq O) (contents : List (IR O × GroupVars))
  | nameCounter (nc : IrNameCounter O.Build)

variable {O : OutputFormat}

/-- Modelled from the spec: `is_empty` is "true iff `Rendered(None)`, or a container whose
own payload is empty and has no children"; of the containers only a sequence can have no
children. -/
def IR.isEmpty : IR O → Bool
  | .rendered none => true
  | .seq _ contents => contents.isEmpty
  | _ => false

mutual

/-- `first_name_block`: the first name block in contents order, with its sub-IR. -/
def IR.firstNameBlock : IR O → Option (NameIR O.Build × IR O)
  | .nameCounter _ | .yearSuffix _ _ | .rendered _ => none
  | .name nir ir => some (nir, ir)
  | .conditionalDisamb _ ir => ir.firstNameBlock
  | .seq _ contents => IR.firstNameBlockAll contents

/-- `contents.iter().find_map(|ir| ir.0.first_name_block())`. -/
def IR.firstNameBlockAll : List (IR O × GroupVars) → Option (NameIR O.Build × IR O)
  | [] => none
  | (ir, _) :: rest =>
    match ir.firstNameBlock with
    | some fnb => some fnb
    | none => IR.firstNameBlockAll rest

end

mutual

/-- The rewrite `suppress_names` makes through the mutex of the first name block: its
IR becomes `Rendered(None)`. `none` when there is no name block. -/
def IR.suppressNamesAux : IR O → Option (IR O)
  | .nameCounter _ | .yearSuffix _ _ | .rendered _ => none
  | .name nir _ => some (.name nir (.rendered none))
  | .conditionalDisamb c ir => (IR.suppressNamesAux ir).map (.conditionalDisamb c)
  | .seq s contents => (IR.suppressNamesAll contents).map (.seq s)

def IR.suppressNamesAll : List (IR O × GroupVars) → Option (List (IR O × GroupVars))
  | [] => none
  | (ir, gv) :: rest =>
    match IR.suppressNamesAux ir with
    | some ir => some ((ir, gv) :: rest)
    | none => (IR.suppressNamesAll rest).map ((ir, gv) :: ·)

end

def IR.suppressNames (ir : IR O) : IR O := (IR.suppressNamesAux ir).getD ir

/-- The match on the second of two contents in `suppress_first_year`: a year suffix that
is unresolved under an explicit one, or important and non-empty otherwise. -/
def yearSuffixHookReady (hasExplicit : Bool) : IR O × GroupVars → Bool
  | (.yearSuffix _ _, .unresolved) => hasExplicit
  | (.yearSuffix _ ysIr, .important) => !hasExplicit && !ysIr.isEmpty
  | _ => false

mutual

/-- `suppress_first_year`: the rewritten IR and whether a year was suppressed. -/
def IR.suppressFirstYear (hasExplicit : Bool) : IR O → IR O × Bool
  | .conditionalDisamb c ir => (.conditionalDisamb c (ir.suppressFirstYear hasExplicit).1, false)
  | .seq s [(first, gv), second] =>
    if yearSuffixHookReady hasExplicit second then (.seq s [(.rendered none, gv), second], true)
    else
      let (contents, found) := IR.suppressFirstYearAll hasExplicit [(first, gv), second]
      (.seq s contents, found)
  | .seq s contents =>
    let (contents, found) := IR.suppressFirstYearAll hasExplicit contents
    (.seq s contents, found)
  | ir => (ir, false)

/-- The `for (ir, _) in seq.contents.iter_mut()` loop: every child it visits keeps its
rewrite, and the loop stops at the first that reports a year. -/
def IR.suppressFirstYearAll (hasExplicit : Bool) :
    List (IR O × GroupVars) → List (IR O × GroupVars) × Bool
  | [] => ([], false)
  | (ir, gv) :: rest =>
    let (ir, found) := ir.suppressFirstYear hasExplicit
    if found then ((ir, gv) :: rest, true)
    else
      let (rest, found) := IR.suppressFirstYearAll hasExplicit rest
      ((ir, gv) :: rest, found)

end

mutual

def IR.hasExplicitYearSuffix : IR O → Bool
  | .yearSuffix ⟨.explicit _, _, _⟩ ir => !ir.isEmpty
  | .conditionalDisamb _ ir => ir.hasExplicitYearSuffix
  | .seq _ contents => IR.hasExplicitYearSuffixAll contents
  | _ => false

def IR.hasExplicitYearSuffixAll : List (IR O × GroupVars) → Bool
  | [] => false
  | (ir, _) :: rest => ir.hasExplicitYearSuffix || IR.hasExplicitYearSuffixAll rest

end

def IR.suppressYear (ir : IR O) : IR O := (ir.suppressFirstYear ir.hasExplicitYearSuffix).1

/-- After a conditional the search goes on to the next item, whatever the conditional's
body suppressed. -/
theorem IR.suppressFirstYear_past_conditional (hasExplicit : Bool) (s : IrSeq O)
    (c : ConditionalDisambIR) (body next : IR O) (gv gv' : GroupVars)
    (notPair : yearSuffixHookReady hasExplicit (next, gv') = false) :
    (IR.seq s [(.conditionalDisamb c body, gv), (next, gv')]).suppressFirstYear hasExplicit =
      (.seq s [(.conditionalDisamb c (body.suppressFirstYear hasExplicit).1, gv),
          ((next.suppressFirstYear hasExplicit).1, gv')],
        (next.suppressFirstYear hasExplicit).2) := by
  simp only [IR.suppressFirstYear, notPair, IR.suppressFirstYearAll]
  cases (next.suppressFirstYear hasExplicit).2 <;> rfl

def yearPair (year : String) : IR plainText :=
  .seq IrSeq.default [(.rendered (some (.year year)), .important),
    (.yearSuffix ⟨.plain, .important, none⟩ (.rendered (some (.yearSuffix "a"))), .important)]

def conditionalThenYear : IR plainText :=
  .seq IrSeq.default [(.conditionalDisamb ⟨⟨0⟩, .important, false⟩ (yearPair "2000"), .important),
    (yearPair "2001", .important)]

theorem conditionalThenYear_suppresses_both :
    yearSuffixHookReady false (yearPair "2001", .important) = false ∧
    conditionalThenYear.suppressFirstYear false =
      (.seq IrSeq.default [(.conditionalDisamb ⟨⟨0⟩, .important, false⟩
          ((yearPair "2000").suppressFirstYear false).1, .important),
        (((yearPair "2001").suppressFirstYear false).1, .important)],
        ((yearPair "2001").suppressFirstYear false).2) ∧
    conditionalThenYear.suppressYear =
      .seq IrSeq.default
        [(.conditionalDisamb ⟨⟨0⟩, .important, false⟩
            (.seq IrSeq.default [(.rendered none, .important),
              (.yearSuffix ⟨.plain, .important, none⟩ (.rendered (some (.yearSuffix "a"))),
                .important)]), .important),
         (.seq IrSeq.default [(.rendered none, .important),
            (.yearSuffix ⟨.plain, .important, none⟩ (.rendered (some (.yearSuffix "a"))),
              .important)], .important)] :=
  ⟨rfl, IR.suppressFirstYear_past_conditional false IrSeq.default _ (yearPair "2000")
    (yearPair "2001") .important .important rfl, rfl⟩

mutual

def IR.noConditional : IR O → Bool
  | .conditionalDisamb _ _ => false
  | .seq _ contents => IR.noConditionalAll contents
  | _ => true

def IR.noConditionalAll : List (IR O × GroupVars) → Bool
  | [] => true
  | (ir, _) :: rest => ir.noConditional && IR.noConditionalAll rest

end

/-- `ir'` is `ir` with one year blanked: the first of two items of a sequence whose second
is a year suffix ready to render is `Rendered(None)`, at some depth of sequences. -/
inductive BlanksOneYear (hasExplicit : Bool) : IR O → IR O → Prop
  | here (s : IrSeq O) (first : IR O) (gv : GroupVars) (second : IR O × GroupVars)
      (ready : yearSuffixHookReady hasExplicit second = true) :
      BlanksOneYear hasExplicit (.seq s [(first, gv), second]) (.seq s [(.rendered none, gv), second])
  | inside (s : IrSeq O) (pre post : List (IR O × GroupVars)) (gv : GroupVars) {ir ir' : IR O} :
      BlanksOneYear hasExplicit ir ir' →
        BlanksOneYear hasExplicit (.seq s (pre ++ (ir, gv) :: post)) (.seq s (pre ++ (ir', gv) :: post))

theorem IR.suppressFirstYear_seq_loop (hasExplicit : Bool) (s : IrSeq O)
    (contents : List (IR O × GroupVars))
    (notPair : ∀ first gv second, contents = [(first, gv), second] →
      yearSuffixHookReady hasExplicit second = false) :
    (IR.seq s contents).suppressFirstYear hasExplicit =
      (.seq s (IR.suppressFirstYearAll hasExplicit contents).1,
        (IR.suppressFirstYearAll hasExplicit contents).2) := by
  rcases contents with _ | ⟨⟨first, gv⟩, _ | ⟨second, _ | ⟨third, rest⟩⟩⟩
  · rfl
  · rfl
  · simp [IR.suppressFirstYear, notPair first gv second rfl]
  · rfl

mutual

theorem IR.suppressFirstYear_blanksOne (hasExplicit : Bool) :
    ∀ ir : IR O, ir.noConditional = true →
      ir.suppressFirstYear hasExplicit = (ir, false) ∨
        ∃ ir', BlanksOneYear hasExplicit ir ir' ∧ ir.suppressFirstYear hasExplicit = (ir', true)
  | .rendered _, _ | .name _ _, _ | .yearSuffix _ _, _ | .nameCounter _, _ => .inl rfl
  | .conditionalDisamb _ _, h => absurd h (by simp [IR.noConditional])
  | .seq s contents, h => by
    by_cases pair : ∃ first gv second, contents = [(first, gv), second] ∧
        yearSuffixHookReady hasExplicit second = true
    · obtain ⟨first, gv, second, rfl, ready⟩ := pair
      exact .inr ⟨_, .here s first gv second ready, by simp [IR.suppressFirstYear, ready]⟩
    · rw [IR.suppressFirstYear_seq_loop hasExplicit s contents fun first gv second e =>
        Bool.eq_false_iff.2 fun r => pair ⟨first, gv, second, e, r⟩]
      rcases IR.suppressFirstYearAll_blanksOne hasExplicit contents h with
        same | ⟨pre, post, gv, ir, ir', rfl, blank, found⟩
      · exact .inl (by rw [same])
      · exact .inr ⟨_, .inside s pre post gv blank, by rw [found]⟩

theorem IR.suppressFirstYearAll_blanksOne (hasExplicit : Bool) :
    ∀ contents : List (IR O × GroupVars), IR.noConditionalAll contents = true →
      IR.suppressFirstYearAll hasExplicit contents = (contents, false) ∨
        ∃ pre post gv ir ir', contents = pre ++ (ir, gv) :: post ∧ BlanksOneYear hasExplicit ir ir' ∧
          IR.suppressFirstYearAll hasExplicit contents = (pre ++ (ir', gv) :: post, true)
  | [], _ => .inl rfl
  | (ir, gv) :: rest, h => by
    simp only [IR.noConditionalAll, Bool.and_eq_true] at h
    rcases IR.suppressFirstYear_blanksOne hasExplicit ir h.1 with same | ⟨ir', blank, found⟩
    · rcases IR.suppressFirstYearAll_blanksOne hasExplicit rest h.2 with
        rsame | ⟨pre, post, gv', x, x', rfl, blank, rfound⟩
      · exact .inl (by simp [IR.suppressFirstYearAll, same, rsame])
      · exact .inr ⟨(ir, gv) :: pre, post, gv', x, x', rfl, blank,
          by simp [IR.suppressFirstYearAll, same, rfound]⟩
    · exact .inr ⟨[], rest, gv, ir, ir', rfl, blank, by simp [IR.suppressFirstYearAll, found]⟩

end

theorem IR.suppressFirstYearAll_found (hasExplicit : Bool) (post : List (IR O × GroupVars))
    (ir : IR O) (gv : GroupVars) (found : (ir.suppressFirstYear hasExplicit).2 = true) :
    ∀ pre : List (IR O × GroupVars),
      (IR.suppressFirstYearAll hasExplicit (pre ++ (ir, gv) :: post)).2 = true
  | [] => by simp [IR.suppressFirstYearAll, found]
  | (x, g) :: pre => by
    simp only [List.cons_append, IR.suppressFirstYearAll]
    split
    · rfl
    · exact IR.suppressFirstYearAll_found hasExplicit post ir gv found pre

theorem BlanksOneYear.found {hasExplicit : Bool} {ir ir' : IR O}
    (b : BlanksOneYear hasExplicit ir ir') : (ir.suppressFirstYear hasExplicit).2 = true := by
  induction b with
  | here s first gv second ready => simp [IR.suppressFirstYear, ready]
  | @inside s pre post gv x _ _ ih =>
    by_cases pair : ∃ first gv' second, pre ++ (x, gv) :: post = [(first, gv'), second] ∧
        yearSuffixHookReady hasExplicit second = true
    · obtain ⟨first, gv', second, e, ready⟩ := pair
      rw [e]; simp [IR.suppressFirstYear, ready]
    · rw [IR.suppressFirstYear_seq_loop hasExplicit s _ fun first gv' second e =>
        Bool.eq_false_iff.2 fun r => pair ⟨first, gv', second, e, r⟩]
      exact IR.suppressFirstYearAll_found hasExplicit post x gv ih pre

/-- Without conditionals, `suppress_first_year` blanks exactly one year when some year
stands before a ready year suffix, down through sequences, and otherwise changes nothing. -/
theorem IR.suppressFirstYear_blanksOneYear (hasExplicit : Bool) (ir : IR O)
    (noCond : ir.noConditional = true) :
    ((¬ ∃ ir', BlanksOneYear hasExplicit ir ir') ∧ ir.suppressFirstYear hasExplicit = (ir, false)) ∨
      ∃ ir', BlanksOneYear hasExplicit ir ir' ∧ ir.suppressFirstYear hasExplicit = (ir', true) := by
  rcases IR.suppressFirstYear_blanksOne hasExplicit ir noCond with same | blanks
  · refine .inl ⟨fun ⟨_, b⟩ => ?_, same⟩
    simpa [same] using b.found
  · exact .inr blanks

theorem yearPair_blanksOneYear :
    (yearPair "2001").noConditional = true ∧
      (((¬ ∃ ir', BlanksOneYear false (yearPair "2001") ir') ∧
          (yearPair "2001").suppressFirstYear false = (yearPair "2001", false)) ∨
        ∃ ir', BlanksOneYear false (yearPair "2001") ir' ∧
          (yearPair "2001").suppressFirstYear false = (ir', true)) :=
  ⟨rfl, IR.suppressFirstYear_blanksOneYear false (yearPair "2001") rfl⟩

/-- `split_first_field`: a sequence of two or more contents becomes a left-margin block
holding the first field and the prefix, and a right-inline block holding the rest and
the suffix. -/
def IR.splitFirstField : IR O → IR O
  | .seq me ((first, gv) :: rest@(_ :: _)) =>
    let (afpre, afsuf) : Option Affixes × Option Affixes := match me.affixes with
      | some mine => (some ⟨mine.prefixText, ""⟩, some ⟨"", mine.suffixText⟩)
      | none => (none, none)
    .seq { formatting := me.formatting, affixes := none, delimiter := me.delimiter,
           display := none, quotes := me.quotes, textCase := me.textCase, droppedGv := none }
      [(.seq { IrSeq.default with display := some .leftMargin, affixes := afpre } [(first, gv)],
          gv),
       (.seq { IrSeq.default with display := some .rightInline, affixes := afsuf } rest,
          .important)]
  | ir => ir

mutual

/-- `collapse_to_cnum`; `cnumOf` is `fmt.output(build).parse().ok()`. -/
def IR.collapseToCnum (cnumOf : O.Build → Option UInt32) : IR O → Option UInt32
  | .rendered (some (.citationNumber build)) => cnumOf build
  | .conditionalDisamb _ ir => ir.collapseToCnum cnumOf
  | .seq _ contents => IR.collapseToCnumOne cnumOf contents
  | _ => none

/-- A sequence answers only when it has exactly one item. -/
def IR.collapseToCnumOne (cnumOf : O.Build → Option UInt32) :
    List (IR O × GroupVars) → Option UInt32
  | [(x, _)] => x.collapseToCnum cnumOf
  | _ => none

end

end Transforms

end Citeproc
