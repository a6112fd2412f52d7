import Limux.Lib.KeyTree
import Mathlib.Data.Rat.Defs

/-! The split tree of a workspace (`app/src/split.rs`): an arena of nodes in a
hash map, edited in place. Recursive walks take the number of nodes as fuel, so
that they are total on every arena; on well-formed trees the fuel never runs out. -/
namespace Limux

abbrev PaneId := ℕ
abbrev SurfaceId := ℕ
abbrev BrowserPanelId := ℕ
abbrev NodeId := ℕ

inductive Orientation
  | horizontal | vertical
  deriving DecidableEq, Repr

inductive Direction
  | up | down | left | right
  deriving DecidableEq, Repr

/-- The f64 operations the layout code uses, with no laws: what holds for every
instance holds of IEEE arithmetic and of exact rationals alike. -/
class F64Ops (F : Type) where
  lit : ℚ → F
  ofUsize : ℕ → F
  ofInt : Int → F
  add : F → F → F
  sub : F → F → F
  mul : F → F → F
  div : F → F → F
  abs : F → F
  le : F → F → Bool
  lt : F → F → Bool

/-- Exact arithmetic. -/
instance : F64Ops ℚ where
  lit := id
  ofUsize n := n
  ofInt n := n
  add := (· + ·)
  sub := (· - ·)
  mul := (· * ·)
  div := (· / ·)
  abs x := if x < 0 then -x else x
  le x y := decide (x ≤ y)
  lt x y := decide (x < y)

def F64Ops.clamp {F : Type} [F64Ops F] (x lo hi : F) : F :=
  let x := if F64Ops.lt x lo then lo else x
  if F64Ops.lt hi x then hi else x

structure Rect (F : Type) where
  x : F
  y : F
  w : F
  h : F

inductive Node (F : Type)
  | leaf (paneId : PaneId)
  | split (orientation : Orientation) (ratio : F) (first second : NodeId)
  deriving DecidableEq, Repr

/-- `Node::Leaf { pane_id } if pane_id == p`. -/
def Node.holds {F : Type} (p : PaneId) : Node F → Bool
  | .leaf q => q = p
  | .split _ _ _ _ => false

abbrev Arena (F : Type) := HashMap NodeId (Node F)

structure SplitTree (F : Type) where
  nodes : Arena F
  root : Option NodeId
  /-- The `u32` counter, without its end. -/
  nextId : ℕ
  focused : Option PaneId

/-- The order in which a hash map happens to be iterated. -/
structure IterOrder (K : Type) where
  enum : List K → List K
  perm : ∀ ks, (enum ks).Perm ks

def IterOrder.listed (K : Type) : IterOrder K := ⟨id,fun _ => .refl _⟩

namespace Arena

variable {F : Type}

/-- `if let Some(Node::Split { .. }) = nodes.get_mut(&id)`. -/
def updateSplit (nodes : Arena F) (id : NodeId)
    (f : Orientation → F → NodeId → NodeId → Node F) : Arena F :=
  match nodes.lookup id with
  | some (.split o r a b) => nodes.insert id (f o r a b)
  | _ => nodes

def collectPanes (nodes : Arena F) : ℕ → NodeId → List PaneId
  | 0, _ => []
  | fuel+1, id =>
    match nodes.lookup id with
    | some (.leaf p) => [p]
    | some (.split _ _ a b) => collectPanes nodes fuel a ++ collectPanes nodes fuel b
    | none => []

/-- Deepest leaf following the `second` child at each split. -/
def findChainEnd (nodes : Arena F) : ℕ → NodeId → NodeId
  | 0, id => id
  | fuel+1, id =>
    match nodes.lookup id with
    | some (.leaf _) => id
    | some (.split _ _ _ b) => findChainEnd nodes fuel b
    | none => id

def findLeaf (nodes : Arena F) (p : PaneId) : ℕ → NodeId → Option NodeId
  | 0, _ => none
  | fuel+1, id =>
    match nodes.lookup id with
    | none => none
    | some (.leaf q) => if q = p then some id else none
    | some (.split _ _ a b) => (findLeaf nodes p fuel a).or (findLeaf nodes p fuel b)

/-- Parent split of the leaf holding `p`, with `true` for the first child. -/
def findParent (nodes : Arena F) (p : PaneId) : ℕ → NodeId → Option (NodeId × Bool)
  | 0, _ => none
  | fuel+1, id =>
    match nodes.lookup id with
    | none => none
    | some (.leaf _) => none
    | some (.split _ _ a b) =>
      if (nodes.lookup a).any (Node.holds p) then some (id,true)
      else if (nodes.lookup b).any (Node.holds p) then some (id,false)
      else (findParent nodes p fuel a).or (findParent nodes p fuel b)

def findParentOfNode (nodes : Arena F) (target : NodeId) : ℕ → NodeId → Option (NodeId × Bool)
  | 0, _ => none
  | fuel+1, id =>
    match nodes.lookup id with
    | none => none
    | some (.leaf _) => none
    | some (.split _ _ a b) =>
      if a = target then some (id,true)
      else if b = target then some (id,false)
      else (findParentOfNode nodes target fuel a).or (findParentOfNode nodes target fuel b)

def replaceChild (old new : NodeId) : ℕ → Arena F → NodeId → Arena F
  | 0, nodes, _ => nodes
  | fuel+1, nodes, id =>
    match nodes.lookup id with
    | some (.split o r a b) =>
      if a = old then nodes.insert id (.split o r new b)
      else if b = old then nodes.insert id (.split o r a new)
      else replaceChild old new fuel (replaceChild old new fuel nodes a) b
    | _ => nodes

/-- Ratios `1/n, 1/(n-1), …, 1/2` down a right-leaning chain. -/
def setChainRatios [F64Ops F] : ℕ → Arena F → NodeId → Arena F
  | n+2, nodes, id =>
    match nodes.lookup id with
    | some (.split o _ a b) =>
      setChainRatios (n+1)
        (nodes.insert id (.split o (F64Ops.div (F64Ops.lit 1) (F64Ops.ofUsize (n+2))) a b)) b
    | _ => nodes
  | _, nodes, _ => nodes

def computeBounds [F64Ops F] (nodes : Arena F) : ℕ → NodeId → Rect F → List (PaneId × Rect F)
  | 0, _, _ => []
  | fuel+1, id, rect =>
    match nodes.lookup id with
    | some (.leaf p) => [(p,rect)]
    | some (.split .horizontal ratio a b) =>
      let w1 := F64Ops.mul rect.w ratio
      computeBounds nodes fuel a ⟨rect.x,rect.y,w1,rect.h⟩ ++
        computeBounds nodes fuel b ⟨F64Ops.add rect.x w1,rect.y,F64Ops.sub rect.w w1,rect.h⟩
    | some (.split .vertical ratio a b) =>
      let h1 := F64Ops.mul rect.h ratio
      computeBounds nodes fuel a ⟨rect.x,rect.y,rect.w,h1⟩ ++
        computeBounds nodes fuel b ⟨rect.x,F64Ops.add rect.y h1,rect.w,F64Ops.sub rect.h h1⟩
    | none => []

end Arena

def remapNode {F : Type} (remap : HashMap NodeId NodeId) : Node F → Node F
  | .leaf p => .leaf p
  | .split o r a b => .split o r ((remap.lookup a).getD a) ((remap.lookup b).getD b)

namespace SplitTree

variable {F : Type}

def new : SplitTree F := ⟨∅,none,0,none⟩

/-- Recursion bound for the walks of this tree. -/
def fuel (t : SplitTree F) : ℕ := t.nodes.keys.length + 1

def allocId (t : SplitTree F) : NodeId × SplitTree F := (t.nextId,{ t with nextId := t.nextId+1 })

def insertNode (t : SplitTree F) (id : NodeId) (n : Node F) : SplitTree F :=
  { t with nodes := t.nodes.insert id n }

def newWithPane (p : PaneId) : SplitTree F :=
  let (id,t) := allocId new
  { t.insertNode id (.leaf p) with root := some id, focused := some p }

def panes (t : SplitTree F) : List PaneId :=
  match t.root with
  | some r => t.nodes.collectPanes t.fuel r
  | none => []

/-- First loop of `merge` over one source tree: a fresh id for every old one. -/
def allocRemap (t : SplitTree F) (ids : List NodeId) : HashMap NodeId NodeId × SplitTree F :=
  ids.foldl (fun s old => let (id,t) := allocId s.2; (s.1.insert old id,t)) (∅,t)

/-- Second loop of `merge`: the nodes under their new ids, children remapped. -/
def insertRemapped (t : SplitTree F) (source : Arena F) (remap : HashMap NodeId NodeId)
    (ids : List NodeId) : SplitTree F :=
  ids.foldl (fun t old =>
    match source.lookup old, remap.lookup old with
    | some node, some id => t.insertNode id (remapNode remap node)
    | _, _ => t) t

def merge (ord : IterOrder NodeId) (first second : SplitTree F) (o : Orientation) (ratio : F) :
    SplitTree F :=
  let t : SplitTree F := { new with nextId := max first.nextId second.nextId }
  let firstIds := ord.enum first.nodes.keys
  let (firstRemap,t) := t.allocRemap firstIds
  let t := t.insertRemapped first.nodes firstRemap firstIds
  let secondIds := ord.enum second.nodes.keys
  let (secondRemap,t) := t.allocRemap secondIds
  let t := t.insertRemapped second.nodes secondRemap secondIds
  let firstRoot := first.root.bind firstRemap.lookup
  let secondRoot := second.root.bind secondRemap.lookup
  let t := match firstRoot, secondRoot with
    | some fr, some sr =>
      let (rootId,t) := t.allocId
      { t.insertNode rootId (.split o ratio fr sr) with root := some rootId }
    | some fr, none => { t with root := some fr }
    | none, some sr => { t with root := some sr }
    | none, none => t
  { t with focused := t.panes.head? }

def setFocused (t : SplitTree F) (p : PaneId) : SplitTree F := { t with focused := some p }

def setRatio (t : SplitTree F) (id : NodeId) (ratio : F) : SplitTree F :=
  { t with nodes := t.nodes.updateSplit id (fun o _ a b => .split o ratio a b) }

def nodeIdForPane (t : SplitTree F) (p : PaneId) : Option NodeId :=
  t.root.bind (t.nodes.findLeaf p t.fuel)

def equalizeChain [F64Ops F] (t : SplitTree F) : SplitTree F :=
  let n := t.panes.length
  if n ≤ 1 then t
  else match t.root with
    | some root => { t with nodes := t.nodes.setChainRatios n root }
    | none => t

def equalize [F64Ops F] (t : SplitTree F) : SplitTree F :=
  { t with nodes := t.nodes.keys.foldl (fun nodes id =>
      Arena.updateSplit nodes id (fun o _ a b => .split o (F64Ops.lit (1/2)) a b)) t.nodes }

/-- New leaf after the given node: the `second` sibling of a first child is
wrapped, a second child is split. The leaf is stored before its place is known. -/
def insertAfterNode [F64Ops F] (t : SplitTree F) (target : NodeId) (newPane : PaneId)
    (o : Orientation) : SplitTree F :=
  let (newLeaf,t) := t.allocId
  let t := t.insertNode newLeaf (.leaf newPane)
  match t.root with
  | none => t
  | some root =>
    if root = target then
      let (newSplit,t) := t.allocId
      { t.insertNode newSplit (.split o (F64Ops.lit (1/2)) target newLeaf) with
        root := some newSplit }
    else match t.nodes.lookup target with
      | some (.leaf p) =>
        match t.nodes.findParent p t.fuel root with
        | none => t
        | some (parent,true) =>
          match t.nodes.lookup parent with
          | some (.split _ _ _ oldSecond) =>
            let (newSplit,t) := t.allocId
            let t := t.insertNode newSplit (.split o (F64Ops.lit (1/2)) newLeaf oldSecond)
            { t with nodes := t.nodes.updateSplit parent (fun o r a _ => .split o r a newSplit) }
          | _ => t
        | some (parent,false) =>
          let (newSplit,t) := t.allocId
          let t := t.insertNode newSplit (.split o (F64Ops.lit (1/2)) target newLeaf)
          { t with nodes := t.nodes.updateSplit parent (fun o r a _ => .split o r a newSplit) }
      | _ => t

def insertPaneAfterFocused [F64Ops F] (t : SplitTree F) (newPane : PaneId) (o : Orientation) :
    Bool × SplitTree F :=
  match t.root with
  | none =>
    let (id,t) := t.allocId
    (true,{ t.insertNode id (.leaf newPane) with root := some id, focused := some newPane })
  | some root =>
    match t.nodes.lookup root with
    | some (.leaf _) =>
      let (newLeaf,t) := t.allocId
      let t := t.insertNode newLeaf (.leaf newPane)
      let (splitId,t) := t.allocId
      let t := t.insertNode splitId (.split o (F64Ops.lit (1/2)) root newLeaf)
      (true,equalizeChain { t with root := some splitId, focused := some newPane })
    | _ =>
      let last := t.nodes.findChainEnd t.fuel root
      let focused := t.focused.getD (match t.nodes.lookup last with
        | some (.leaf p) => p
        | _ => newPane)
      -- an unknown focus falls back to appending at the end of the chain
      let target := (t.nodeIdForPane focused).getD last
      let t := t.insertAfterNode target newPane o
      (true,equalizeChain { t with focused := some newPane })

/-- Common body of `split` and `split_before`; `before` puts the new leaf first. -/
def splitAt [F64Ops F] (before : Bool) (t : SplitTree F) (p newPane : PaneId) (o : Orientation) :
    Option NodeId × SplitTree F :=
  let pair (target newLeaf : NodeId) : Node F :=
    if before then .split o (F64Ops.lit (1/2)) newLeaf target
    else .split o (F64Ops.lit (1/2)) target newLeaf
  match t.root with
  | none => (none,t)
  | some root =>
    match t.nodes.findParent p t.fuel root with
    | none =>
      match t.nodes.lookup root with
      | some (.leaf q) =>
        if q ≠ p then (none,t)
        else
          let (newLeaf,t) := t.allocId
          let t := t.insertNode newLeaf (.leaf newPane)
          let (splitId,t) := t.allocId
          let t := t.insertNode splitId (pair root newLeaf)
          (some splitId,{ t with root := some splitId, focused := some newPane })
      | _ => (none,t)
    | some (parent,isFirst) =>
      match t.nodes.lookup parent with
      | some (.split _ _ a b) =>
        let target := if isFirst then a else b
        let (newLeaf,t) := t.allocId
        let t := t.insertNode newLeaf (.leaf newPane)
        let (newSplit,t) := t.allocId
        let t := t.insertNode newSplit (pair target newLeaf)
        let t := { t with nodes := t.nodes.updateSplit parent (fun o r a b =>
          if isFirst then .split o r newSplit b else .split o r a newSplit) }
        (some newSplit,{ t with focused := some newPane })
      | _ => (none,t)

def split [F64Ops F] (t : SplitTree F) (p newPane : PaneId) (o : Orientation) :
    Option NodeId × SplitTree F := splitAt false t p newPane o

def splitBefore [F64Ops F] (t : SplitTree F) (p newPane : PaneId) (o : Orientation) :
    Option NodeId × SplitTree F := splitAt true t p newPane o

def remove (t : SplitTree F) (p : PaneId) : Bool × SplitTree F :=
  match t.root with
  | none => (false,t)
  | some root =>
    if (t.nodes.lookup root).any (Node.holds p) then
      (true,{ t with nodes := t.nodes.erase root, root := none, focused := none })
    else match t.nodes.findParent p t.fuel root with
      | none => (false,t)
      | some (parent,isFirst) =>
        match t.nodes.lookup parent with
        | some (.split _ _ a b) =>
          let sibling := if isFirst then b else a
          let target := if isFirst then a else b
          let t := { t with nodes := t.nodes.erase target }
          let t :=
            if t.root = some parent then
              { t with root := some sibling, nodes := t.nodes.erase parent }
            else match t.nodes.findParentOfNode parent t.fuel root with
              | some (grandparent,gpIsFirst) =>
                let nodes := t.nodes.updateSplit grandparent (fun o r a b =>
                  if gpIsFirst then .split o r sibling b else .split o r a sibling)
                { t with nodes := nodes.erase parent }
              | none => t
          (true,if t.focused = some p then { t with focused := t.panes.head? } else t)
        | _ => (false,t)

def navigate (t : SplitTree F) (forward : Bool) : Option PaneId × SplitTree F :=
  let panes := t.panes
  match t.focused with
  | none => (none,t)
  | some focused =>
    match panes.findIdx? (fun p => p = focused) with
    | none => (none,t)
    | some idx =>
      let newIdx := if forward then (idx+1) % panes.length
        else (idx+panes.length-1) % panes.length
      match panes[newIdx]? with
      | some p => (some p,{ t with focused := some p })
      | none => (none,t)

def paneBounds [F64Ops F] (t : SplitTree F) : List (PaneId × Rect F) :=
  match t.root with
  | some root => t.nodes.computeBounds t.fuel root
      ⟨F64Ops.lit 0,F64Ops.lit 0,F64Ops.lit 1,F64Ops.lit 1⟩
  | none => []

end SplitTree

section Directional

variable {F : Type} [F64Ops F]

def Rect.cx (r : Rect F) : F := F64Ops.add r.x (F64Ops.div r.w (F64Ops.lit 2))
def Rect.cy (r : Rect F) : F := F64Ops.add r.y (F64Ops.div r.h (F64Ops.lit 2))

/-- Whether `r` lies beyond the edge of `f` in the given direction. -/
def Rect.beyond (f r : Rect F) : Direction → Bool
  | .left => F64Ops.le (F64Ops.add r.x r.w) (F64Ops.add f.x (F64Ops.lit (1/1000)))
  | .right => F64Ops.le (F64Ops.sub (F64Ops.add f.x f.w) (F64Ops.lit (1/1000))) r.x
  | .up => F64Ops.le (F64Ops.add r.y r.h) (F64Ops.add f.y (F64Ops.lit (1/1000)))
  | .down => F64Ops.le (F64Ops.sub (F64Ops.add f.y f.h) (F64Ops.lit (1/1000))) r.y

/-- Distance on the main axis plus a tenth of the distance on the other one. -/
def Rect.navDist (f r : Rect F) : Direction → F
  | .left | .right => F64Ops.add (F64Ops.abs (F64Ops.sub r.cx f.cx))
      (F64Ops.mul (F64Ops.abs (F64Ops.sub r.cy f.cy)) (F64Ops.lit (1/10)))
  | .up | .down => F64Ops.add (F64Ops.abs (F64Ops.sub r.cy f.cy))
      (F64Ops.mul (F64Ops.abs (F64Ops.sub r.cx f.cx)) (F64Ops.lit (1/10)))

/-- One candidate of the loop in `navigate_directional`. -/
def navStep (focused : PaneId) (f : Rect F) (d : Direction) (best : Option (PaneId × F))
    (c : PaneId × Rect F) : Option (PaneId × F) :=
  if c.1 = focused then best
  else if !f.beyond c.2 d then best
  else
    let dist := f.navDist c.2 d
    match best with
    | none => some (c.1,dist)
    | some b => if F64Ops.lt dist b.2 then some (c.1,dist) else best

namespace SplitTree

def navigateDirectional (t : SplitTree F) (d : Direction) : Option PaneId × SplitTree F :=
  match t.focused with
  | none => (none,t)
  | some focused =>
    let bounds := t.paneBounds
    match bounds.find? (fun c => c.1 = focused) with
    | none => (none,t)
    | some (_,rect) =>
      match bounds.foldl (navStep focused rect d) none with
      | some (p,_) => (some p,{ t with focused := some p })
      | none => (none,t)

def movePaneAdjacent (t : SplitTree F) (source target : PaneId) (before : Bool)
    (o : Orientation) : Bool × SplitTree F :=
  if source = target then (false,t)
  else if (t.nodeIdForPane source).isNone || (t.nodeIdForPane target).isNone then (false,t)
  else
    let (removed,t) := t.remove source
    if !removed then (false,t)
    else match t.nodeIdForPane target with
      | none => (false,t)
      | some targetNode =>
        let (sourceLeaf,t) := t.allocId
        let t := t.insertNode sourceLeaf (.leaf source)
        let (newSplit,t) := t.allocId
        let t := t.insertNode newSplit (
          if before then .split o (F64Ops.lit (1/2)) sourceLeaf targetNode
          else .split o (F64Ops.lit (1/2)) targetNode sourceLeaf)
        let t :=
          if t.root = some targetNode then { t with root := some newSplit }
          else match t.root with
            | some root =>
              { t with nodes := Arena.replaceChild targetNode newSplit t.fuel t.nodes root }
            | none => t
        (true,equalizeChain { t with focused := some source })

end SplitTree

end Directional

end Limux
