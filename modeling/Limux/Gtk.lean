import Limux.Workspace

/-! The GTK widgets the window lays a workspace out with, as far as their documentation
says what they do: paneds with two child slots, and stacks of named children. -/
namespace Limux

abbrev WidgetId := ℕ

/-- `gtk::Paned`. -/
structure Paned where
  orientation : Orientation
  startChild : Option WidgetId
  endChild : Option WidgetId

namespace Paned

/-- The child on one side, `true` being the start. -/
def child (w : Paned) : Bool → Option WidgetId
  | true => w.startChild
  | false => w.endChild

def setSide (w : Paned) (c : Option WidgetId) : Bool → Paned
  | true => { w with startChild := c }
  | false => { w with endChild := c }

@[simp] theorem child_setSide (w : Paned) (c : Option WidgetId) (side s : Bool) :
    (w.setSide c side).child s = if s = side then c else w.child s := by
  cases side <;> cases s <;> rfl

@[simp] theorem orientation_setSide (w : Paned) (c : Option WidgetId) (side : Bool) :
    (w.setSide c side).orientation = w.orientation := by
  cases side <;> rfl

end Paned

/-- The paneds, the paned each widget is a child of, and the next new widget. Any other
widget is a box without slots. -/
structure Gtk where
  paneds : HashMap WidgetId Paned
  parents : HashMap WidgetId WidgetId
  next : WidgetId

namespace Gtk

def empty : Gtk := ⟨∅,∅,0⟩

def newBox (g : Gtk) : WidgetId × Gtk := (g.next,{ g with next := g.next+1 })

def newPaned (g : Gtk) (o : Orientation) : WidgetId × Gtk :=
  (g.next,{ g with paneds := g.paneds.insert g.next ⟨o,none,none⟩, next := g.next+1 })

def setOrientation (g : Gtk) (p : WidgetId) (o : Orientation) : Gtk :=
  { g with paneds := g.paneds.modify p (fun w => { w with orientation := o }) }

def child (g : Gtk) (p : WidgetId) (side : Bool) : Option WidgetId :=
  (g.paneds.lookup p).bind (fun w => w.child side)

def parent (g : Gtk) (x : WidgetId) : Option WidgetId := g.parents.lookup x

/-- `set_start_child` and `set_end_child`. A child that has a parent is refused; the child
that was in the slot loses its parent. -/
def setChild (g : Gtk) (p : WidgetId) (side : Bool) (c : Option WidgetId) : Gtk :=
  match g.paneds.lookup p with
  | none => g
  | some w =>
    if w.child side = c ∨ c.any (fun x => (g.parent x).isSome) then g
    else
      let parents := match w.child side with
        | some old => g.parents.erase old
        | none => g.parents
      { g with
        paneds := g.paneds.insert p (w.setSide c side)
        parents := match c with
          | some x => parents.insert x p
          | none => parents }

end Gtk

/-- What a tab shows: the terminal area or the browser box. -/
inductive PanelWidget
  | glArea (s : SurfaceId)
  | browserBox (b : BrowserPanelId)
  | other
  deriving DecidableEq, Repr

structure StackChild where
  name : String
  widget : PanelWidget
  deriving DecidableEq, Repr

/-- `gtk::Stack`, with the name of the visible child. -/
structure Stack where
  children : List StackChild
  visible : Option String
  deriving DecidableEq, Repr

namespace Stack

def childByName (s : Stack) (name : String) : Option StackChild :=
  s.children.find? (fun c => c.name = name)

def addNamed (s : Stack) (c : StackChild) : Stack :=
  ⟨s.children ++ [c],s.visible.or (some c.name)⟩

/-- When the visible child goes, the first one that is left becomes visible. -/
def remove (s : Stack) (name : String) : Stack :=
  let children := s.children.eraseP (fun c => c.name = name)
  ⟨children,if s.visible = some name then children.head?.map StackChild.name else s.visible⟩

def setVisibleChildName (s : Stack) (name : String) : Stack :=
  if (s.childByName name).isSome then { s with visible := some name } else s

end Stack

end Limux
