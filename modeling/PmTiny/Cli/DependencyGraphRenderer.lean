import PmTiny.Core.DependencyRuntime
import PmTiny.Daemon.Snapshots
import PmTiny.Lib.DepthFirst
import PmTiny.Lib.LongestPath

namespace PmTiny.Cli
set_option autoImplicit true

/-- What the graph commands look at in a `process_list_entry`. -/
structure ProcessListEntry where
  name : String
  dependsOn : List String := []
  state : Int := 0
  deriving DecidableEq, Repr

structure GraphNodeView where
  id : Nat
  entry : Option ProcessListEntry
  layer : Nat := 0
  dependencies : List String := []
  dependents : List String := []
  blockedBy : List String := []
  externalDependencies : List String := []
  deriving DecidableEq, Repr

structure GraphView where
  focus : String
  nodes : List GraphNodeView := []
  edgeCount : Nat := 0
  deriving DecidableEq, Repr

def stateOf (entries : List ProcessListEntry) (id : Nat) : Int :=
  (entries[id]?.map (·.state)).getD 0

/-- The failed programs that a blocked one waits for, through the blocked ones between them. -/
def blockedRoots (graph : DependencyGraph) (entries : List ProcessListEntry) (id : Nat) :
    List String :=
  if stateOf entries id ≠ ProgState.blocked.value then []
  else
    DependencyRuntime.sortedNames graph <|
      (DependencyRuntime.walk graph (fun i => stateOf entries i = ProgState.blocked.value)
        (graph.size + 1) [] id).filter fun i => stateOf entries i = ProgState.startupFail.value

def includeDependencies (graph : DependencyGraph) (visible : Nat → Bool) (id : Nat) : Nat → Bool :=
  DepthFirst.mark graph.dependencies (graph.size + 1) visible id

/-- The nodes that are shown: all of them, or the focus with what is above and below it. -/
def visibleNodes (graph : DependencyGraph) (focus : String) : Except String (Nat → Bool) :=
  if focus = "" then .ok fun _ => true
  else
    match graph.find focus with
    | none => .error ("process not found: " ++ focus)
    | some id =>
      .ok ((graph.transitiveDependents id).foldl (fun visible dependent =>
        Function.update visible dependent true) (includeDependencies graph (fun _ => false) id))

/-- One step of the loop over the dependencies of a node, with the number of edges so far. -/
def addDependency (graph : DependencyGraph) (visible : Nat → Bool) (acc : GraphNodeView × Nat)
    (dependency : Nat) : GraphNodeView × Nat :=
  if visible dependency then
    ({ acc.1 with dependencies := acc.1.dependencies ++ [graph.name dependency] }, acc.2 + 1)
  else
    ({ acc.1 with
        externalDependencies := acc.1.externalDependencies ++ [graph.name dependency] }, acc.2)

def addNode (graph : DependencyGraph) (entries : List ProcessListEntry) (visible : Nat → Bool)
    (layers : Nat → Nat) (view : GraphView) (id : Nat) : GraphView :=
  if visible id then
    let added := (graph.dependencies id).foldl (addDependency graph visible)
      ({ id := id, entry := entries[id]?, layer := layers id }, view.edgeCount)
    { view with
      nodes := view.nodes ++ [{ added.1 with
        dependents := ((graph.dependents id).filter visible).map graph.name
        blockedBy := blockedRoots graph entries id }]
      edgeCount := added.2 }
  else view

/-- The order of the nodes: by layer, then by position. -/
def GraphNodeView.le (left right : GraphNodeView) : Prop :=
  left.layer < right.layer ∨ left.layer = right.layer ∧ left.id ≤ right.id

instance decidableNodeLe : DecidableRel GraphNodeView.le := fun left right =>
  inferInstanceAs
    (Decidable (left.layer < right.layer ∨ left.layer = right.layer ∧ left.id ≤ right.id))

def dependencyConfigs (entries : List ProcessListEntry) : List DependencyNodeConfig :=
  entries.map fun entry => ⟨entry.name, entry.dependsOn⟩

def buildView (entries : List ProcessListEntry) (focus : String) : Except String GraphView :=
  match DependencyGraph.build (dependencyConfigs entries) with
  | .error error => .error ("invalid dependency graph response: " ++ error.message)
  | .ok graph =>
    match visibleNodes graph focus with
    | .error what => .error what
    | .ok visible =>
      let layers := LongestPath.layers graph.dependencies visible graph.topologicalOrder
      let view := graph.topologicalOrder.foldl (addNode graph entries visible layers)
        { focus := focus }
      .ok { view with nodes := view.nodes.insertionSort GraphNodeView.le }

end PmTiny.Cli
