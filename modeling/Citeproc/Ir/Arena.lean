import Citeproc.Names.RefIr

/-!
The cite IR of `ir.rs`: a node of the `indextree` arena with its whole subtree.
-/
namespace Citeproc

inductive CiteEdgeData (B : Type) where
  | output (b : B)
  | locator (b : B)
  | locatorLabel (b : B)
  | yearSuffix (b : B)
  | citationNumber (b : B)
  | citationNumberLabel (b : B)
  | frnn (b : B)
  | frnnLabel (b : B)
  | accessed (b : B)
  | year (b : B)
  | term (b : B)
  deriving DecidableEq, Repr

/-- csl's `<choose>` element, which the core only compares; an interned id stands for
it. -/
structure Choose where
  id : Nat
  deriving DecidableEq, Repr

/-- csl's `<text>` element, likewise compared only. -/
structure TextElement where
  id : Nat
  deriving DecidableEq, Repr

inductive YearSuffixHook where
  | explicit (el : TextElement)
  | plain
  deriving DecidableEq, Repr

structure YearSuffix where
  hook : YearSuffixHook
  groupVars : GroupVars
  suffixNum : Option UInt32
  deriving DecidableEq, Repr

structure ConditionalDisambIR where
  choose : Choose
  groupVars : GroupVars
  done : Bool
  deriving DecidableEq, Repr

structure IrNameCounter (B : Type) where
  nameIrs : List (NameIR B)
  groupVars : GroupVars
  deriving DecidableEq

structure IrSeq (O : OutputFormat) where
  formatting : Option O.Formatting
  affixes : Option Affixes
  delimiter : String
  display : Option DisplayMode
  quotes : Option O.Quotes
  textCase : TextCase
  droppedGv : Option GroupVars
  deriving DecidableEq

inductive IR (O : OutputFormat) where
  | rendered (e : Option (CiteEdgeData O.Build))
  | name (nir : NameIR O.Build)
  | conditionalDisamb (c : ConditionalDisambIR)
  | yearSuffix (ys : YearSuffix)
  | seq (s : IrSeq O)
  | nameCounter (nc : IrNameCounter O.Build)
  deriving DecidableEq

/-- A node of the arena: its `NodeId`, the `(IR, GroupVars)` pair stored at it, and its
children in order. -/
inductive Node (O : OutputFormat) where
  | mk (id : Nat) (ir : IR O) (gv : GroupVars) (children : List (Node O))

variable {O : OutputFormat}

/-- The derived `Default` of `IrSeq`. -/
def IrSeq.default : IrSeq O := ⟨none, none, "", none, none, .none, none⟩

/-- `IR::year_suffix`: a fresh hook, unresolved and not yet numbered. -/
def IR.mkYearSuffix (hook : YearSuffixHook) : IR O × GroupVars :=
  (.yearSuffix ⟨hook, .unresolved, none⟩, .unresolved)

namespace Node

def id : Node O → Nat | mk id _ _ _ => id
def ir : Node O → IR O | mk _ ir _ _ => ir
def gv : Node O → GroupVars | mk _ _ gv _ => gv
def children : Node O → List (Node O) | mk _ _ _ cs => cs

theorem induction {P : Node O → Prop}
    (step : ∀ id ir gv cs, (∀ c ∈ cs, P c) → P (.mk id ir gv cs)) (n : Node O) : P n :=
  @Node.rec O P (fun cs => ∀ c ∈ cs, P c) (fun id ir gv cs ih => step id ir gv cs ih)
    (fun _ h => absurd h (List.not_mem_nil _))
    (fun _ _ hc hcs => List.forall_mem_cons.2 ⟨hc, hcs⟩) n

end Node

namespace CiteEdgeData

def toEdgeData (e : CiteEdgeData O.Build) (formatting : O.Formatting) : EdgeData :=
  match e with
  | output x | year x | term x => .output (O.outputInContext x formatting)
  | yearSuffix _ => .yearSuffix
  | frnn _ => .frnn
  | frnnLabel _ => .frnnLabel
  | locator _ => .locator
  | locatorLabel _ => .locatorLabel
  | citationNumber _ => .citationNumber
  | citationNumberLabel _ => .citationNumberLabel
  | accessed _ => .accessed

def inner {B : Type} : CiteEdgeData B → B
  | output x | term x | year x | yearSuffix x | frnn x | frnnLabel x | locator x
  | locatorLabel x | citationNumber x | accessed x | citationNumberLabel x => x

end CiteEdgeData

/-- `IR::is_empty`, documented as "Rendered(None), empty YearSuffix or empty seq". -/
def IR.isEmpty : Node O → Bool
  | .mk _ (.rendered none) _ _ => true
  | .mk _ (.seq _) _ cs | .mk _ (.name _) _ cs | .mk _ (.conditionalDisamb _) _ cs
  | .mk _ (.yearSuffix _) _ cs => !cs.isEmpty
  | .mk _ (.nameCounter _) _ _ => false
  | _ => false

mutual

/-- `IR::deep_equals`. The group vars it is given are never read. -/
def IR.deepEquals : Node O → Node O → Bool
  | .mk _ a _ as, .mk _ b _ bs =>
    match a, b with
    | .rendered a, .rendered b => a == b
    | .seq a, .seq b => a == b && IR.deepEqualsChildren as bs
    | .yearSuffix a, .yearSuffix b => a == b && IR.deepEqualsChildren as bs
    | .conditionalDisamb a, .conditionalDisamb b => a == b && IR.deepEqualsChildren as bs
    | .name a, .name b => a == b && IR.deepEqualsChildren as bs
    | _, _ => false

/-- `zip(..).all(..)` over the two child lists: it stops at the shorter one. -/
def IR.deepEqualsChildren : List (Node O) → List (Node O) → Bool
  | a :: as, b :: bs => IR.deepEquals a b && IR.deepEqualsChildren as bs
  | _, _ => true

end

section GroupVarsFold

variable (neighbour : GroupVars → GroupVars → GroupVars)

/-- `IrSeq::overall_group_vars`: the children's stored group vars folded into the
dropped ones, then `implicit_conditional`. -/
def IrSeq.overallGroupVars (droppedGv : Option GroupVars) (children : List (Node O)) :
    Option GroupVars :=
  droppedGv.map fun dropped =>
    let acc := children.foldl (fun acc child => neighbour acc child.gv) dropped
    if acc != .missing then .important else .plain

/-- `flatten_children` after its `filter_map`: the flattened children grouped with no
delimiter, or nothing. -/
def IR.flattenChildren (group : List O.Build) : Option O.Build :=
  if group.isEmpty then none else some (O.group group "" none)

/-- `IrSeq::flatten_seq`, given the flattened children. -/
def IrSeq.flattenSeq (s : IrSeq O) (children : List (Node O)) (xs : List O.Build) :
    Option O.Build :=
  if !(IrSeq.overallGroupVars neighbour s.droppedGv children).all GroupVars.shouldRenderTree then
    none
  else if xs.isEmpty then none
  else
    let grp := O.group xs s.delimiter s.formatting
    let grp := O.affixedQuoted grp s.affixes s.quotes
    let grp := O.withDisplay grp s.display true
    some (O.applyTextCase s.textCase grp)

mutual

def IR.flatten : Node O → Option O.Build
  | .mk _ (.rendered none) _ _ => none
  | .mk _ (.rendered (some x)) _ _ => some x.inner
  | .mk _ (.seq s) _ cs => s.flattenSeq neighbour cs (IR.flattenAll cs)
  | .mk _ (.yearSuffix _) _ cs | .mk _ (.conditionalDisamb _) _ cs
  | .mk _ (.nameCounter _) _ cs | .mk _ (.name _) _ cs => IR.flattenChildren (IR.flattenAll cs)

/-- The children's `filter_map(|child| IR::flatten(child))`. -/
def IR.flattenAll : List (Node O) → List O.Build
  | [] => []
  | c :: cs => (IR.flatten c).toList ++ IR.flattenAll cs

end

/-- The formatting `IrSeq::append_edges` passes to its children. -/
def IrSeq.subFormatting (s : IrSeq O) (formatContext : O.Formatting) : O.Formatting :=
  match s.formatting with
  | some mine => O.overrideWith formatContext mine
  | none => formatContext

/-- `IrSeq::append_edges` around its children: nothing without children, else the
prefix, the open tags, the children's edges `innards`, the close tags and the suffix,
each text only when non-empty. Quotes and text case are not read. -/
def IrSeq.appendEdges (s : IrSeq O) (hasChildren : Bool) (innards : List EdgeData) :
    List EdgeData :=
  if !hasChildren then [] else
  let formatting := s.formatting.getD O.defaultFormatting
  let openTags := O.stackPreorder formatting s.display
  let closeTags := O.stackPostorder formatting s.display
  let prefixEdge := match s.affixes with
    | some a => if a.prefixText.isEmpty then [] else [EdgeData.output a.prefixText]
    | none => []
  let suffixEdge := match s.affixes with
    | some a => if a.suffixText.isEmpty then [] else [EdgeData.output a.suffixText]
    | none => []
  prefixEdge ++ (if openTags.isEmpty then [] else [.output openTags]) ++ innards ++
    (if closeTags.isEmpty then [] else [.output closeTags]) ++ suffixEdge

mutual

def IR.appendEdges : Node O → O.Formatting → List EdgeData
  | .mk _ (.rendered none) _ _, _ => []
  | .mk _ (.rendered (some ed)) _ _, formatting => [ed.toEdgeData formatting]
  | .mk id (.yearSuffix ys) gv cs, _ =>
    if IR.isEmpty (.mk id (.yearSuffix ys) gv cs) then [.yearSuffix] else []
  | .mk _ (.name _) _ cs, formatting | .mk _ (.nameCounter _) _ cs, formatting
  | .mk _ (.conditionalDisamb _) _ cs, formatting => IR.appendChildEdges cs formatting
  | .mk _ (.seq s) _ cs, formatting =>
    if (IrSeq.overallGroupVars neighbour s.droppedGv cs).all GroupVars.shouldRenderTree then
      s.appendEdges (!cs.isEmpty)
        (IrSeq.appendInnards s.delimiter (s.subFormatting formatting) false cs)
    else []

def IR.appendChildEdges : List (Node O) → O.Formatting → List EdgeData
  | [], _ => []
  | c :: cs, formatting => IR.appendEdges c formatting ++ IR.appendChildEdges cs formatting

/-- The `for child in node.children(arena)` loop of `IrSeq::append_edges`: a child's
edges, preceded by the delimiter once an earlier child has pushed some. -/
def IrSeq.appendInnards (delimiter : String) (sub : O.Formatting) (seen : Bool) :
    List (Node O) → List EdgeData
  | [] => []
  | c :: cs =>
    let edges := IR.appendEdges c sub
    if edges.isEmpty then IrSeq.appendInnards delimiter sub seen cs
    else
      (if seen && !delimiter.isEmpty then [.output (O.outputInContext (O.plain delimiter) sub)]
        else []) ++ edges ++ IrSeq.appendInnards delimiter sub true cs

end

def IR.toEdgeStream (root : Node O) : List EdgeData :=
  IR.appendEdges neighbour root O.defaultFormatting

mutual

/-- `IR::force_gv`, with the subtree it leaves behind: a sequence first recomputes its
children. -/
def IR.forceGv : Node O → Node O × Option GroupVars
  | .mk id (.rendered e) gv cs => (.mk id (.rendered e) gv cs, none)
  | .mk id (.seq s) gv cs =>
    let cs := IrSeq.recomputeChildren cs
    (.mk id (.seq s) gv cs, IrSeq.overallGroupVars neighbour s.droppedGv cs)
  | .mk id (.yearSuffix ys) gv cs => (.mk id (.yearSuffix ys) gv cs, some ys.groupVars)
  | .mk id (.conditionalDisamb c) gv cs =>
    (.mk id (.conditionalDisamb c) gv cs, some c.groupVars)
  | .mk id (.name nir) gv cs => (.mk id (.name nir) gv cs, none)
  | .mk id (.nameCounter nc) gv cs => (.mk id (.nameCounter nc) gv cs, some nc.groupVars)

/-- The loop of `IrSeq::recompute_group_vars`: force each child and store what it
forces. -/
def IrSeq.recomputeChildren : List (Node O) → List (Node O)
  | [] => []
  | c :: cs =>
    let c := match IR.forceGv c with
      | (.mk id ir _ children, some force) => .mk id ir force children
      | (c, none) => c
    c :: IrSeq.recomputeChildren cs

end

/-- `IR::recompute_group_vars`: only a sequence recomputes, and its own group vars stay. -/
def IR.recomputeGroupVars : Node O → Node O
  | .mk id (.seq s) gv cs => .mk id (.seq s) gv (IrSeq.recomputeChildren neighbour cs)
  | n => n

end GroupVarsFold

mutual

/-- `list_ysh_inner`: year-suffix hooks in pre-order, through sequences and
conditionals only. -/
def IR.listYshInner : Node O → List Nat
  | .mk id (.yearSuffix _) _ _ => [id]
  | .mk _ (.nameCounter _) _ _ | .mk _ (.rendered _) _ _ | .mk _ (.name _) _ _ => []
  | .mk _ (.conditionalDisamb _) _ cs | .mk _ (.seq _) _ cs => IR.listYshChildren cs

def IR.listYshChildren : List (Node O) → List Nat
  | [] => []
  | c :: cs => IR.listYshInner c ++ IR.listYshChildren cs

end

def IR.listYearSuffixHooks (root : Node O) : List Nat := IR.listYshInner root

end Citeproc
