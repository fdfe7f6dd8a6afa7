import Citeproc.Output
import Citeproc.Names.Iter

/-!
Global name disambiguation (`disambiguated_person_names` in `disamb/names.rs`).
-/
namespace Citeproc

inductive NameVariable where
  | author
  | collectionEditor
  | composer
  | containerAuthor
  | director
  | editor
  | editorialDirector
  | illustrator
  | interviewer
  | originalAuthor
  | recipient
  | reviewedAuthor
  | translator
  deriving DecidableEq, Repr

structure PersonName where
  family : Option String
  given : Option String
  nonDroppingParticle : Option String
  droppingParticle : Option String
  suffix : Option String
  literal : Option String
  deriving DecidableEq, Repr

structure DisambNameData where
  refId : String
  var : NameVariable
  el : NameEl
  value : PersonName
  primary : Bool
  deriving DecidableEq, Repr

/-- Interned id of a `DisambNameData`. -/
structure DisambName where
  id : Nat
  deriving DecidableEq, Repr

inductive DemoteNonDroppingParticle where
  | never
  | sortOnly
  | displayAndSort
  deriving DecidableEq, Repr

structure CitationStyle where
  givennameDisambiguationRule : GivenNameDisambiguationRule
  disambiguateAddGivenname : Bool
  deriving DecidableEq, Repr

structure Style where
  citation : CitationStyle
  demoteNonDroppingParticle : DemoteNonDroppingParticle
  initializeWithHyphen : Bool
  deriving DecidableEq, Repr

/-- The name renderer's settings (`OneNameVar` in `crate::names`). -/
structure OneNameVar where
  nameEl : NameEl
  bumpNameCount : UInt16
  demoteNonDroppingParticle : DemoteNonDroppingParticle
  initializeWithHyphen : Bool

/-- The queries the core makes: the style, the edge interner, the interned names,
and the person-name renderer of `crate::names`. -/
structure IrDatabase (O : OutputFormat) where
  style : Style
  edge : EdgeData → Edge
  lookupDisambName : DisambName → DisambNameData
  allPersonNames : List DisambName
  renderPersonName : OneNameVar → PersonName → Bool → O.Build

variable {O : OutputFormat}

namespace DisambNameData

def applyPass (d : DisambNameData) : NameDisambPass → DisambNameData
  | .withFormLong => { d with el := { d.el with form := some .long } }
  | .withInitializeFalse => { d with el := { d.el with initializeGiven := some false } }

def singleName (d : DisambNameData) (db : IrDatabase O) : O.Build :=
  db.renderPersonName
    { nameEl := d.el, bumpNameCount := 0,
      demoteNonDroppingParticle := db.style.demoteNonDroppingParticle,
      initializeWithHyphen := db.style.initializeWithHyphen }
    d.value (!d.primary)

/-- This is used directly for global name disambiguation. -/
def singleNameEdge (d : DisambNameData) (db : IrDatabase O) (stack : O.Formatting) : Edge :=
  db.edge (.output (O.outputInContext (d.singleName db) stack))

def disambIter (d : DisambNameData) (rule : GivenNameDisambiguationRule) : SingleNameDisambIter :=
  .new (.fromRule rule d.primary) d.el

/-- `d` after the first `k` of the passes `ps`. -/
def expandedBy (d : DisambNameData) (ps : List NameDisambPass) (k : Nat) : DisambNameData :=
  (ps.take k).foldl applyPass d

@[simp] theorem expandedBy_zero (d : DisambNameData) (ps : List NameDisambPass) :
    d.expandedBy ps 0 = d := rfl

@[simp] theorem expandedBy_succ (d : DisambNameData) (p : NameDisambPass)
    (ps : List NameDisambPass) (k : Nat) :
    d.expandedBy (p :: ps) (k + 1) = (d.applyPass p).expandedBy ps k := rfl

end DisambNameData

structure NameVariantMatcher where
  edges : List Edge

namespace NameVariantMatcher

def accepts (m : NameVariantMatcher) (edge : Edge) : Bool := m.edges.contains edge

/-- The loop of `from_disamb_name`: apply each pass and push the edge of the result. -/
def pushVariants (db : IrDatabase O) (data : DisambNameData) :
    List NameDisambPass → List Edge
  | [] => []
  | pass :: ps =>
    let data := data.applyPass pass
    data.singleNameEdge db O.defaultFormatting :: pushVariants db data ps

def fromDisambName (db : IrDatabase O) (dn : DisambName) : NameVariantMatcher :=
  let rule := db.style.citation.givennameDisambiguationRule
  let data := db.lookupDisambName dn
  ⟨data.singleNameEdge db O.defaultFormatting :: pushVariants db data (data.disambIter rule).passes⟩

end NameVariantMatcher

/-- `is_ambiguous`: count the matchers that accept `edge`, stopping once two have. -/
def isAmbiguous (matchers : List NameVariantMatcher) (edge : Edge) : Bool :=
  go 0 matchers
where
  go (n : Nat) : List NameVariantMatcher → Bool
    | [] => n > 1
    | m :: ms =>
      let n := if m.accepts edge then n + 1 else n
      if n > 1 then true else go n ms

/-- The `while is_ambiguous(edge)` loop for one name. Successive `iter.next()` calls
return the passes `ps`; when they run out the data is reset to `original`. -/
def expandWhileAmbiguous (db : IrDatabase O) (ambiguous : Edge → Bool)
    (original : DisambNameData) (dn : DisambNameData) : List NameDisambPass → DisambNameData
  | [] => if ambiguous (dn.singleNameEdge db O.defaultFormatting) then original else dn
  | pass :: ps =>
    if ambiguous (dn.singleNameEdge db O.defaultFormatting) then
      expandWhileAmbiguous db ambiguous original (dn.applyPass pass) ps
    else dn

/-- `FnvHashMap::insert` on the result map. -/
def insertName (results : DisambName → Option DisambNameData) (key : DisambName)
    (value : DisambNameData) : DisambName → Option DisambNameData :=
  fun k => if k = key then some value else results k

/-- Performs global name disambiguation. -/
def disambiguatedPersonNames (db : IrDatabase O) : DisambName → Option DisambNameData :=
  let rule := db.style.citation.givennameDisambiguationRule
  if !db.style.citation.disambiguateAddGivenname || rule == .byCite then fun _ => none
  else
    let dns := db.allPersonNames
    let matchers := dns.map (NameVariantMatcher.fromDisambName db)
    dns.foldl (fun results dnId =>
      let dn := db.lookupDisambName dnId
      insertName results dnId
        (expandWhileAmbiguous db (isAmbiguous matchers) dn dn (dn.disambIter rule).passes))
      fun _ => none

end Citeproc

namespace Citeproc

variable {O : OutputFormat}

section Lemmas

theorem isAmbiguous_go (e : Edge) (n : Nat) (ms : List NameVariantMatcher) :
    isAmbiguous.go e n ms = decide (1 < n + ms.countP (·.accepts e)) := by
  induction ms generalizing n with
  | nil => simp [isAmbiguous.go]
  | cons m ms ih =>
    simp only [isAmbiguous.go, List.countP_cons]
    split <;> split <;> simp_all <;> omega

theorem isAmbiguous_eq (ms : List NameVariantMatcher) (e : Edge) :
    isAmbiguous ms e = decide (1 < ms.countP (·.accepts e)) := by
  simp [isAmbiguous, isAmbiguous_go]

theorem mem_variants (db : IrDatabase O) (d : DisambNameData) (ps : List NameDisambPass)
    (e : Edge) :
    e ∈ d.singleNameEdge db O.defaultFormatting :: NameVariantMatcher.pushVariants db d ps ↔
      ∃ k ≤ ps.length, e = (d.expandedBy ps k).singleNameEdge db O.defaultFormatting := by
  induction ps generalizing d with
  | nil => simp [NameVariantMatcher.pushVariants]
  | cons p ps ih =>
    rw [NameVariantMatcher.pushVariants, List.mem_cons, ih]
    constructor
    · rintro (rfl | ⟨k, hk, rfl⟩)
      · exact ⟨0, by simp, rfl⟩
      · exact ⟨k + 1, by simpa using hk, rfl⟩
    · rintro ⟨_ | k, hk, rfl⟩
      · exact .inl rfl
      · exact .inr ⟨k, by simpa using hk, rfl⟩

theorem expandWhileAmbiguous_spec (db : IrDatabase O) (amb : Edge → Bool)
    (orig d : DisambNameData) (ps : List NameDisambPass) :
    (∃ k ≤ ps.length,
      expandWhileAmbiguous db amb orig d ps = d.expandedBy ps k ∧
      amb ((d.expandedBy ps k).singleNameEdge db O.defaultFormatting) = false ∧
      ∀ j < k, amb ((d.expandedBy ps j).singleNameEdge db O.defaultFormatting) = true) ∨
    ((∀ k ≤ ps.length, amb ((d.expandedBy ps k).singleNameEdge db O.defaultFormatting) = true) ∧
      expandWhileAmbiguous db amb orig d ps = orig) := by
  induction ps generalizing d with
  | nil =>
    cases h : amb (d.singleNameEdge db O.defaultFormatting)
    · exact .inl ⟨0, le_refl _, by simp [expandWhileAmbiguous, h], h, by simp⟩
    · exact .inr ⟨by simpa using h, by simp [expandWhileAmbiguous, h]⟩
  | cons p ps ih =>
    cases h : amb (d.singleNameEdge db O.defaultFormatting)
    · exact .inl ⟨0, Nat.zero_le _, by simp [expandWhileAmbiguous, h], h, by simp⟩
    · have step : expandWhileAmbiguous db amb orig d (p :: ps) =
          expandWhileAmbiguous db amb orig (d.applyPass p) ps := by
        simp [expandWhileAmbiguous, h]
      rw [step]
      rcases ih (d.applyPass p) with ⟨k, hk, found, clear, before⟩ | ⟨all, reset⟩
      · refine .inl ⟨k + 1, by simpa using hk, found, clear, ?_⟩
        rintro (_ | j) hj
        · exact h
        · exact before j (by omega)
      · refine .inr ⟨?_, reset⟩
        rintro (_ | k) hk
        · exact h
        · exact all k (by simpa using hk)

/-- Rendering and matching never read the list of all names. -/
@[simp] theorem singleNameEdge_withNames (d : DisambNameData) (db : IrDatabase O)
    (dns : List DisambName) (stack : O.Formatting) :
    d.singleNameEdge { db with allPersonNames := dns } stack = d.singleNameEdge db stack := rfl

@[simp] theorem pushVariants_withNames (db : IrDatabase O) (dns : List DisambName)
    (d : DisambNameData) (ps : List NameDisambPass) :
    NameVariantMatcher.pushVariants { db with allPersonNames := dns } d ps =
      NameVariantMatcher.pushVariants db d ps := by
  induction ps generalizing d <;> simp [NameVariantMatcher.pushVariants, *]

@[simp] theorem fromDisambName_withNames (db : IrDatabase O) (dns : List DisambName) :
    NameVariantMatcher.fromDisambName { db with allPersonNames := dns } =
      NameVariantMatcher.fromDisambName db := by
  funext n; simp [NameVariantMatcher.fromDisambName]

@[simp] theorem expandWhileAmbiguous_withNames (db : IrDatabase O) (dns : List DisambName)
    (amb : Edge → Bool) (orig d : DisambNameData) (ps : List NameDisambPass) :
    expandWhileAmbiguous { db with allPersonNames := dns } amb orig d ps =
      expandWhileAmbiguous db amb orig d ps := by
  induction ps generalizing d <;> simp [expandWhileAmbiguous, *]

theorem expandWhileAmbiguous_congr (db : IrDatabase O) {amb amb' : Edge → Bool}
    (orig d : DisambNameData) (ps : List NameDisambPass)
    (agree : ∀ k ≤ ps.length, amb ((d.expandedBy ps k).singleNameEdge db O.defaultFormatting) =
      amb' ((d.expandedBy ps k).singleNameEdge db O.defaultFormatting)) :
    expandWhileAmbiguous db amb orig d ps = expandWhileAmbiguous db amb' orig d ps := by
  have now := agree 0 (Nat.zero_le _)
  simp only [DisambNameData.expandedBy_zero] at now
  induction ps generalizing d with
  | nil => simp [expandWhileAmbiguous, now]
  | cons p ps ih =>
    simp only [expandWhileAmbiguous, now]
    rw [ih (d.applyPass p) (fun k hk => agree (k + 1) (by simpa using hk)) (agree 1 (by simp))]

theorem foldl_insertName (f : DisambName → DisambNameData) (dns : List DisambName)
    (init : DisambName → Option DisambNameData) (k : DisambName) :
    dns.foldl (fun r n => insertName r n (f n)) init k =
      if k ∈ dns then some (f k) else init k := by
  induction dns generalizing init with
  | nil => simp
  | cons n ns ih =>
    rw [List.foldl_cons, ih]
    by_cases hk : k ∈ ns
    · simp [hk]
    · by_cases hn : k = n <;> simp [insertName, hk, hn]

theorem two_le_countP {α : Type} {p : α → Bool} :
    ∀ {l : List α} {i j : Nat} (hi : i < l.length) (hj : j < l.length), i ≠ j →
      p l[i] = true → p l[j] = true → 2 ≤ l.countP p
  | a :: l, 0, 0, _, _, hij, _, _ => absurd rfl hij
  | a :: l, 0, j + 1, _, hj, _, pi, pj => by
    have : 0 < l.countP p := List.countP_pos_iff.mpr ⟨_, List.getElem_mem _, pj⟩
    simp only [List.getElem_cons_zero] at pi
    rw [List.countP_cons, if_pos pi]; omega
  | a :: l, i + 1, 0, hi, _, _, pi, pj => by
    have : 0 < l.countP p := List.countP_pos_iff.mpr ⟨_, List.getElem_mem _, pi⟩
    simp only [List.getElem_cons_zero] at pj
    rw [List.countP_cons, if_pos pj]; omega
  | a :: l, i + 1, j + 1, hi, hj, hij, pi, pj => by
    have := two_le_countP (l := l) (Nat.lt_of_succ_lt_succ hi) (Nat.lt_of_succ_lt_succ hj)
      (fun h => hij (by rw [h])) pi pj
    rw [List.countP_cons]; omega

end Lemmas

def namePasses (db : IrDatabase O) (n : DisambName) : List NameDisambPass :=
  ((db.lookupDisambName n).disambIter db.style.citation.givennameDisambiguationRule).passes

def expandedEdge (db : IrDatabase O) (n : DisambName) (k : Nat) : Edge :=
  ((db.lookupDisambName n).expandedBy (namePasses db n) k).singleNameEdge db O.defaultFormatting

theorem namePasses_eq (db : IrDatabase O) (n : DisambName) :
    namePasses db n = expansionPasses
      (.fromRule db.style.citation.givennameDisambiguationRule (db.lookupDisambName n).primary)
      ((db.lookupDisambName n).el.initializeWith.isSome &&
        (db.lookupDisambName n).el.initializeGiven == some true)
      ((db.lookupDisambName n).el.form.getD .long) :=
  passes_new _ _

theorem fromDisambName_eq (db : IrDatabase O) (n : DisambName) :
    NameVariantMatcher.fromDisambName db n =
      ⟨(db.lookupDisambName n).singleNameEdge db O.defaultFormatting ::
        NameVariantMatcher.pushVariants db (db.lookupDisambName n) (namePasses db n)⟩ := rfl

def acceptCount (db : IrDatabase O) (dns : List DisambName) (e : Edge) : Nat :=
  (dns.map (NameVariantMatcher.fromDisambName db)).countP (·.accepts e)

theorem accepts_fromDisambName (db : IrDatabase O) (n : DisambName) (e : Edge) :
    (NameVariantMatcher.fromDisambName db n).accepts e = true ↔
      ∃ k ≤ (namePasses db n).length, e = expandedEdge db n k := by
  simp only [NameVariantMatcher.accepts, NameVariantMatcher.fromDisambName, List.contains,
    List.elem_iff]
  exact mem_variants db _ _ e

theorem disambiguatedPersonNames_apply (db : IrDatabase O)
    (dagn : db.style.citation.disambiguateAddGivenname = true)
    (notByCite : db.style.citation.givennameDisambiguationRule ≠ .byCite) (n : DisambName) :
    disambiguatedPersonNames db n =
      if n ∈ db.allPersonNames then
        some (expandWhileAmbiguous db (fun e => decide (1 < acceptCount db db.allPersonNames e))
          (db.lookupDisambName n) (db.lookupDisambName n) (namePasses db n))
      else none := by
  have amb : isAmbiguous (db.allPersonNames.map (NameVariantMatcher.fromDisambName db)) =
      fun e => decide (1 < acceptCount db db.allPersonNames e) := by
    funext e; rw [isAmbiguous_eq]; rfl
  simp only [disambiguatedPersonNames, dagn, notByCite, beq_iff_eq, Bool.not_true,
    Bool.false_or, decide_False, if_false, Bool.false_eq_true]
  rw [amb]
  exact foldl_insertName (fun n => expandWhileAmbiguous db _ (db.lookupDisambName n)
    (db.lookupDisambName n) (namePasses db n)) _ _ n

theorem disambiguatedPersonNames_variant (db : IrDatabase O)
    (dagn : db.style.citation.disambiguateAddGivenname = true)
    (notByCite : db.style.citation.givennameDisambiguationRule ≠ .byCite)
    {n : DisambName} {d : DisambNameData} (h : disambiguatedPersonNames db n = some d) :
    ∃ k ≤ (namePasses db n).length, d.singleNameEdge db O.defaultFormatting = expandedEdge db n k := by
  rw [disambiguatedPersonNames_apply db dagn notByCite] at h
  split at h
  · obtain rfl := Option.some.inj h
    rcases expandWhileAmbiguous_spec db _ (db.lookupDisambName n) (db.lookupDisambName n)
      (namePasses db n) with ⟨k, hk, found, -⟩ | ⟨-, reset⟩
    · exact ⟨k, hk, by rw [found]; rfl⟩
    · exact ⟨0, Nat.zero_le _, by rw [reset]; rfl⟩
  · cases h

/-- What global name disambiguation computes for the names `db.allPersonNames`. -/
structure LeastExpansion (db : IrDatabase O) : Prop where
  keys : ∀ n, (disambiguatedPersonNames db n).isSome ↔ n ∈ db.allPersonNames
  least : ∀ n ∈ db.allPersonNames,
    (∃ k ≤ (namePasses db n).length,
      disambiguatedPersonNames db n = some ((db.lookupDisambName n).expandedBy (namePasses db n) k) ∧
      acceptCount db db.allPersonNames (expandedEdge db n k) ≤ 1 ∧
      ∀ j < k, 2 ≤ acceptCount db db.allPersonNames (expandedEdge db n j)) ∨
    ((∀ k ≤ (namePasses db n).length, 2 ≤ acceptCount db db.allPersonNames (expandedEdge db n k)) ∧
      disambiguatedPersonNames db n = some (db.lookupDisambName n))
  orderFree : ∀ dns : List DisambName, dns.Perm db.allPersonNames →
    disambiguatedPersonNames { db with allPersonNames := dns } = disambiguatedPersonNames db
  distinctFinal : ∀ (i j : Nat) (hi : i < db.allPersonNames.length)
    (hj : j < db.allPersonNames.length), i ≠ j → ∀ di dj : DisambNameData,
    disambiguatedPersonNames db db.allPersonNames[i] = some di →
    disambiguatedPersonNames db db.allPersonNames[j] = some dj →
    acceptCount db db.allPersonNames (di.singleNameEdge db O.defaultFormatting) ≤ 1 →
    di.singleNameEdge db O.defaultFormatting ≠ dj.singleNameEdge db O.defaultFormatting

theorem disambiguatedPersonNames_leastExpansion (db : IrDatabase O)
    (dagn : db.style.citation.disambiguateAddGivenname = true)
    (notByCite : db.style.citation.givennameDisambiguationRule ≠ .byCite) :
    LeastExpansion db where
  keys n := by
    rw [disambiguatedPersonNames_apply db dagn notByCite]
    split <;> simp_all
  least n mem := by
    rw [disambiguatedPersonNames_apply db dagn notByCite, if_pos mem]
    rcases expandWhileAmbiguous_spec db _ (db.lookupDisambName n) (db.lookupDisambName n)
      (namePasses db n) with ⟨k, hk, found, clear, before⟩ | ⟨all, reset⟩
    · refine .inl ⟨k, hk, by rw [found], ?_, fun j hj => ?_⟩
      · simpa [expandedEdge] using clear
      · simpa [expandedEdge] using before j hj
    · exact .inr ⟨fun k hk => by simpa [expandedEdge] using all k hk, by rw [reset]⟩
  orderFree dns perm := by
    funext n
    have count : ∀ e, acceptCount { db with allPersonNames := dns } dns e =
        acceptCount db db.allPersonNames e := fun e => by
      simpa [acceptCount] using (perm.map (NameVariantMatcher.fromDisambName db)).countP_eq _
    rw [disambiguatedPersonNames_apply { db with allPersonNames := dns } dagn notByCite,
      disambiguatedPersonNames_apply db dagn notByCite]
    simp only [count, perm.mem_iff, expandWhileAmbiguous_withNames]
    rfl
  distinctFinal i j hi hj hij di dj hdi hdj unique same := by
    obtain ⟨k, hk, ei⟩ := disambiguatedPersonNames_variant db dagn notByCite hdi
    obtain ⟨l, hl, ej⟩ := disambiguatedPersonNames_variant db dagn notByCite hdj
    have two := two_le_countP (p := (·.accepts (di.singleNameEdge db O.defaultFormatting)))
      (l := db.allPersonNames.map (NameVariantMatcher.fromDisambName db))
      (by simpa using hi) (by simpa using hj) hij
      (by simpa using (accepts_fromDisambName db _ _).mpr ⟨k, hk, ei⟩)
      (by simpa [same] using (accepts_fromDisambName db _ _).mpr ⟨l, hl, ej⟩)
    exact absurd unique (by unfold acceptCount; omega)

@[simp] theorem namePasses_withNames (db : IrDatabase O) (dns : List DisambName)
    (n : DisambName) : namePasses { db with allPersonNames := dns } n = namePasses db n := rfl

theorem acceptCount_append (db : IrDatabase O) (dns : List DisambName) (y : DisambName)
    (e : Edge) :
    acceptCount db (dns ++ [y]) e =
      acceptCount db dns e + if (NameVariantMatcher.fromDisambName db y).accepts e then 1 else 0 := by
  simp [acceptCount, List.countP_append, List.countP_cons]

theorem one_le_acceptCount (db : IrDatabase O) {dns : List DisambName} {x : DisambName}
    (hx : x ∈ dns) {k : Nat} (hk : k ≤ (namePasses db x).length) :
    1 ≤ acceptCount db dns (expandedEdge db x k) :=
  List.countP_pos_iff.mpr ⟨_, List.mem_map_of_mem _ hx,
    (accepts_fromDisambName db x _).mpr ⟨k, hk, rfl⟩⟩

theorem two_le_acceptCount (db : IrDatabase O) {dns : List DisambName} {x z : DisambName}
    (hx : x ∈ dns) (hz : z ∈ dns) (hzx : z ≠ x) {k : Nat} (hk : k ≤ (namePasses db z).length)
    (acc : (NameVariantMatcher.fromDisambName db x).accepts (expandedEdge db z k) = true) :
    2 ≤ acceptCount db dns (expandedEdge db z k) := by
  obtain ⟨i, hi, rfl⟩ := List.getElem_of_mem hz
  obtain ⟨j, hj, rfl⟩ := List.getElem_of_mem hx
  exact two_le_countP (l := dns.map (NameVariantMatcher.fromDisambName db))
    (by simpa using hi) (by simpa using hj) (fun e => hzx (by subst e; rfl))
    (by simpa using (accepts_fromDisambName db _ _).mpr ⟨k, hk, rfl⟩) (by simpa using acc)

/-- Global disambiguation counts matchers per name entry and never reads `ref_id`: an
entry `y` whose variant edges are those of an entry `x` makes every expansion of `x`
ambiguous, so `x` is reset to its original data, while every other entry keeps its
result. -/
theorem disambiguatedPersonNames_sameVariants (db : IrDatabase O)
    (dagn : db.style.citation.disambiguateAddGivenname = true)
    (notByCite : db.style.citation.givennameDisambiguationRule ≠ .byCite)
    {x y : DisambName} (hx : x ∈ db.allPersonNames)
    (same : (NameVariantMatcher.fromDisambName db y).edges =
      (NameVariantMatcher.fromDisambName db x).edges) :
    disambiguatedPersonNames { db with allPersonNames := db.allPersonNames ++ [y] } x =
        some (db.lookupDisambName x) ∧
      ∀ z ∈ db.allPersonNames, z ≠ x →
        disambiguatedPersonNames { db with allPersonNames := db.allPersonNames ++ [y] } z =
          disambiguatedPersonNames db z := by
  have acceptsY : ∀ e, (NameVariantMatcher.fromDisambName db y).accepts e =
      (NameVariantMatcher.fromDisambName db x).accepts e := by
    intro e; simp only [NameVariantMatcher.accepts, same]
  have count : ∀ e, acceptCount { db with allPersonNames := db.allPersonNames ++ [y] }
      (db.allPersonNames ++ [y]) e = acceptCount db db.allPersonNames e +
        if (NameVariantMatcher.fromDisambName db x).accepts e then 1 else 0 := by
    intro e; rw [← acceptsY, ← acceptCount_append]; simp [acceptCount]
  constructor
  · rw [disambiguatedPersonNames_apply { db with allPersonNames := db.allPersonNames ++ [y] }
      dagn notByCite, if_pos (List.mem_append_left _ hx)]
    simp only [count, expandWhileAmbiguous_withNames, namePasses_withNames, Option.some.injEq]
    rcases expandWhileAmbiguous_spec db (fun e => decide (1 < acceptCount db db.allPersonNames e +
        if (NameVariantMatcher.fromDisambName db x).accepts e then 1 else 0))
      (db.lookupDisambName x) (db.lookupDisambName x) (namePasses db x)
      with ⟨k, hk, -, clear, -⟩ | ⟨-, reset⟩
    · have own := (accepts_fromDisambName db x _).mpr ⟨k, hk, rfl⟩
      have := one_le_acceptCount db hx hk
      simp only [expandedEdge] at own this
      simp only [own, if_true, decide_eq_false_iff_not] at clear
      omega
    · exact reset
  · intro z hz hzx
    rw [disambiguatedPersonNames_apply { db with allPersonNames := db.allPersonNames ++ [y] }
      dagn notByCite, if_pos (List.mem_append_left _ hz),
      disambiguatedPersonNames_apply db dagn notByCite, if_pos hz]
    simp only [count, expandWhileAmbiguous_withNames, namePasses_withNames, Option.some.injEq]
    refine expandWhileAmbiguous_congr db _ _ _ fun k hk => ?_
    have two := two_le_acceptCount db hx hz hzx hk
    simp only [expandedEdge] at two
    split
    · have := two ‹_›
      simp only [decide_eq_decide]
      omega
    · simp

def smithEdge : EdgeData → Edge
  | .output s => ⟨(["Smith", "J. Smith", "John Smith", "A. Smith", "Alice Smith"].indexOf s).toUInt32⟩
  | _ => ⟨5⟩

def renderSmith (v : OneNameVar) (name : PersonName) (_ : Bool) : String :=
  let family := name.family.getD ""
  let given := name.given.getD ""
  match v.nameEl.form, v.nameEl.initializeGiven with
  | some .short, _ => family
  | _, some false => given ++ " " ++ family
  | _, _ => String.mk (given.toList.take 1) ++ ". " ++ family

def smithName : DisambName → DisambNameData
  | ⟨1⟩ => ⟨"b", .author, ⟨some .short, some true, some ".", ⟨0⟩⟩,
      ⟨some "Smith", some "Alice", none, none, none, none⟩, true⟩
  | ⟨2⟩ => ⟨"a", .editor, ⟨some .short, some true, some ".", ⟨0⟩⟩,
      ⟨some "Smith", some "John", none, none, none, none⟩, true⟩
  | _ => ⟨"a", .author, ⟨some .short, some true, some ".", ⟨0⟩⟩,
      ⟨some "Smith", some "John", none, none, none, none⟩, true⟩

def smithDb : IrDatabase plainText where
  style := ⟨⟨.allNames, true⟩, .never, false⟩
  edge := smithEdge
  lookupDisambName := smithName
  allPersonNames := [⟨0⟩, ⟨1⟩]
  renderPersonName := renderSmith

theorem smithDb_leastExpansion :
    smithDb.style.citation.disambiguateAddGivenname = true ∧
      smithDb.style.citation.givennameDisambiguationRule ≠ .byCite ∧ LeastExpansion smithDb :=
  ⟨rfl, by decide, disambiguatedPersonNames_leastExpansion smithDb rfl (by decide)⟩

theorem smithDb_editor_edges :
    (NameVariantMatcher.fromDisambName smithDb ⟨2⟩).edges =
      (NameVariantMatcher.fromDisambName smithDb ⟨0⟩).edges := by
  simp only [fromDisambName_eq, namePasses_eq]
  decide

/-- John Smith's author entry is told apart from Alice Smith by its initial (`J. Smith`),
until his editor entry is added: then it is reset to the short form `Smith`. -/
theorem smithDb_editor_resets_author :
    (smithDb.lookupDisambName ⟨2⟩).refId = (smithDb.lookupDisambName ⟨0⟩).refId ∧
      (NameVariantMatcher.fromDisambName smithDb ⟨2⟩).edges =
        (NameVariantMatcher.fromDisambName smithDb ⟨0⟩).edges ∧
      disambiguatedPersonNames { smithDb with allPersonNames := smithDb.allPersonNames ++ [⟨2⟩] } ⟨0⟩ ≠
        disambiguatedPersonNames smithDb ⟨0⟩ := by
  refine ⟨rfl, smithDb_editor_edges, ?_⟩
  rw [disambiguatedPersonNames_apply _ rfl (by decide),
    disambiguatedPersonNames_apply smithDb rfl (by decide)]
  simp only [acceptCount, smithDb, List.map_cons, List.map_nil, List.cons_append,
    List.nil_append, fromDisambName_eq, namePasses_eq]
  decide

theorem smithDb_sameVariants :
    smithDb.style.citation.disambiguateAddGivenname = true ∧
      smithDb.style.citation.givennameDisambiguationRule ≠ .byCite ∧
      (⟨0⟩ : DisambName) ∈ smithDb.allPersonNames ∧
      (NameVariantMatcher.fromDisambName smithDb ⟨2⟩).edges =
        (NameVariantMatcher.fromDisambName smithDb ⟨0⟩).edges ∧
      (disambiguatedPersonNames { smithDb with allPersonNames := smithDb.allPersonNames ++ [⟨2⟩] } ⟨0⟩ =
          some (smithDb.lookupDisambName ⟨0⟩) ∧
        ∀ z ∈ smithDb.allPersonNames, z ≠ ⟨0⟩ →
          disambiguatedPersonNames { smithDb with allPersonNames := smithDb.allPersonNames ++ [⟨2⟩] } z =
            disambiguatedPersonNames smithDb z) :=
  ⟨rfl, by decide, by decide, smithDb_editor_edges,
    disambiguatedPersonNames_sameVariants smithDb rfl (by decide) (by decide) smithDb_editor_edges⟩

end Citeproc
