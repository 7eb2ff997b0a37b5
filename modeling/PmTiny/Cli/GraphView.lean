import PmTiny.Cli.DependencyGraphRenderer
import PmTiny.Core.GraphBuild

namespace PmTiny.Cli
set_option autoImplicit true

/-- The program at `i` names the program at `j` as a dependency. -/
def DependsAt (entries : List ProcessListEntry) (i j : Nat) : Prop :=
  ∃ entry other, entries[i]? = some entry ∧ entries[j]? = some other ∧
    other.name ∈ entry.dependsOn

/-- Everything, or the focus with its transitive dependencies and dependents. -/
def InView (entries : List ProcessListEntry) (focus : String) (i : Nat) : Prop :=
  i < entries.length ∧ (focus = "" ∨ ∃ f entry, entries[f]? = some entry ∧ entry.name = focus ∧
    (Relation.ReflTransGen (DependsAt entries) f i ∨ Relation.ReflTransGen (DependsAt entries) i f))

def ShownEdge (entries : List ProcessListEntry) (focus : String) (i j : Nat) : Prop :=
  InView entries focus i ∧ InView entries focus j ∧ DependsAt entries i j

/-- Every dependency of a shown program stands in one of the two lists, once, in the first when it
is shown. -/
structure SplitsDependencies (entries : List ProcessListEntry) (focus : String)
    (entry : ProcessListEntry) (node : GraphNodeView) : Prop where
  perm : (node.dependencies ++ node.externalDependencies).Perm entry.dependsOn
  nodup : (node.dependencies ++ node.externalDependencies).Nodup
  shown : ∀ j other, entries[j]? = some other → other.name ∈ entry.dependsOn →
    (other.name ∈ node.dependencies ↔ InView entries focus j)

structure Shows (entries : List ProcessListEntry) (focus : String) (view : GraphView) : Prop where
  focused : view.focus = focus
  shown : ∀ i, (∃ node ∈ view.nodes, node.id = i) ↔ InView entries focus i
  entry : ∀ node ∈ view.nodes, ∃ entry, entries[node.id]? = some entry ∧
    node.entry = some entry ∧ SplitsDependencies entries focus entry node
  layer : ∀ node ∈ view.nodes, IsGreatest
    {k | LongestPath.Path (DependsAt entries) (InView entries focus) k node.id} node.layer
  edges : ∃ edges : List (Nat × Nat), edges.Nodup ∧ edges.length = view.edgeCount ∧
    ∀ i j, (i, j) ∈ edges ↔ ShownEdge entries focus i j
  rising : ∀ node ∈ view.nodes, ∀ other ∈ view.nodes,
    ShownEdge entries focus node.id other.id → other.layer < node.layer
  sorted : view.nodes.Pairwise fun left right =>
    left.layer < right.layer ∨ left.layer = right.layer ∧ left.id < right.id

theorem length_configs (entries : List ProcessListEntry) :
    (dependencyConfigs entries).length = entries.length := List.length_map _

theorem getElem?_configs {entries : List ProcessListEntry} {i : Nat} {entry : ProcessListEntry}
    (h : entries[i]? = some entry) :
    (dependencyConfigs entries)[i]? = some ⟨entry.name, entry.dependsOn⟩ := by
  rw [dependencyConfigs, List.getElem?_map, h]
  rfl

section Graph

variable {entries : List ProcessListEntry} {graph : DependencyGraph}
  (hbuild : DependencyGraph.build (dependencyConfigs entries) = .ok graph)

include hbuild

theorem graph_size : graph.size = entries.length := by
  rw [DependencyGraph.size, DependencyGraph.build_names hbuild, List.length_map, length_configs]

theorem graph_name (hentry : entries[i]? = some entry) : graph.name i = entry.name := by
  exact (DependencyGraph.resolves_of_build hbuild).name_of (getElem?_configs hentry)

theorem graph_dependencies (hentry : entries[i]? = some entry) :
    (graph.dependencies i).map graph.name = entry.dependsOn := by
  exact (DependencyGraph.resolves_of_build hbuild).map_deps i _ (getElem?_configs hentry)

theorem graph_name_inj (hi : i < entries.length) (hj : j < entries.length)
    (h : graph.name i = graph.name j) : i = j := by
  rw [← length_configs] at hi hj
  exact (DependencyGraph.resolves_of_build hbuild).inj hi hj h

theorem dependsAt_iff : DependsAt entries i j ↔ j ∈ graph.dependencies i := by
  constructor
  · rintro ⟨entry, other, hentry, hother, hmem⟩
    rw [← graph_dependencies hbuild hentry] at hmem
    obtain ⟨d, hd, hname⟩ := List.mem_map.1 hmem
    have hlt : d < entries.length := by
      rw [← graph_size hbuild]
      exact graph.deps_lt i d hd
    have hj : j < entries.length := (List.getElem?_eq_some_iff.1 hother).1
    rw [← graph_name hbuild hother] at hname
    rw [← graph_name_inj hbuild hlt hj hname]
    exact hd
  · intro hd
    obtain ⟨hi, hj⟩ := (DependencyGraph.resolves_of_build hbuild).lt i j hd
    rw [length_configs] at hi hj
    have hentry := List.getElem?_eq_getElem hi
    have hother := List.getElem?_eq_getElem hj
    refine ⟨_, _, hentry, hother, ?_⟩
    rw [← graph_dependencies hbuild hentry, ← graph_name hbuild hother]
    exact List.mem_map_of_mem hd

theorem dependents_iff : i ∈ graph.dependents d ↔ DependsAt entries i d := by
  rw [DependencyGraph.mem_dependents, dependsAt_iff hbuild]
  constructor
  · exact fun h => h.2
  · intro hd
    have hlt := ((DependencyGraph.resolves_of_build hbuild).lt i d hd).1
    rw [length_configs, ← graph_size hbuild] at hlt
    exact ⟨hlt, hd⟩

omit hbuild in
theorem foldl_update_iff (l : List Nat) (visible : Nat → Bool) :
    l.foldl (fun visible d => Function.update visible d true) visible i = true ↔
      i ∈ l ∨ visible i = true := by
  induction l generalizing visible with
  | nil => simp
  | cons d rest ih =>
    rw [List.foldl_cons, ih, List.mem_cons]
    by_cases hi : i = d
    · rw [hi, Function.update_self]
      simp
    · rw [Function.update_of_ne hi]
      simp only [hi, false_or]

theorem includeDependencies_iff (hid : start < graph.size) :
    includeDependencies graph (fun _ => false) start i = true ↔
      Relation.ReflTransGen (DependsAt entries) start i := by
  have hrank : ∀ x, x < graph.size → ∀ y ∈ graph.dependencies x,
      y < graph.size ∧ graph.topologicalOrder.idxOf y < graph.topologicalOrder.idxOf x := by
    intro x hx y hy
    exact ⟨graph.deps_lt x y hy, graph.order_closed.idxOf_lt (DependencyGraph.mem_order.2 hx) hy⟩
  have hfuel : graph.topologicalOrder.idxOf start < graph.size + 1 := by
    have hlt := List.idxOf_lt_length_of_mem (DependencyGraph.mem_order.2 hid)
    rw [graph.order_length] at hlt
    exact Nat.lt_succ_of_lt hlt
  have hedges : (fun a b => b ∈ graph.dependencies a) = DependsAt entries := by
    funext a b
    exact propext (dependsAt_iff hbuild).symm
  rw [includeDependencies, DepthFirst.mark_iff hrank hid hfuel, hedges]

theorem transitiveDependents_iff (hid : start < graph.size) :
    i ∈ graph.transitiveDependents start ↔ i ≠ start ∧
      Relation.TransGen (DependsAt entries) i start := by
  have hedges : (fun a b => b ∈ graph.dependents a) = Function.swap (DependsAt entries) := by
    funext a b
    exact propext (dependents_iff hbuild)
  rw [DependencyGraph.mem_transitiveDependents hid, hedges, Relation.transGen_swap]

theorem visible_iff (hvisible : visibleNodes graph focus = .ok visible) (hi : i < graph.size) :
    visible i = true ↔ InView entries focus i := by
  have hlt : i < entries.length := by
    rw [← graph_size hbuild]
    exact hi
  rw [visibleNodes] at hvisible
  split at hvisible
  · rename_i hfocus
    cases hvisible
    exact ⟨fun _ => ⟨hlt, .inl hfocus⟩, fun _ => rfl⟩
  · rename_i hfocus
    split at hvisible
    · cases hvisible
    · rename_i id hfind
      cases hvisible
      obtain ⟨hid, hname⟩ := DependencyGraph.find_eq_some.1 hfind
      have hentry := List.getElem?_eq_getElem (graph_size hbuild ▸ hid)
      have hsame : ∀ f entry, entries[f]? = some entry → entry.name = focus → f = id := by
        intro f entry hf hentryName
        have hflt := (List.getElem?_eq_some_iff.1 hf).1
        rw [← graph_name hbuild hf, ← hname] at hentryName
        exact graph_name_inj hbuild hflt (graph_size hbuild ▸ hid) hentryName
      rw [foldl_update_iff, includeDependencies_iff hbuild hid, transitiveDependents_iff hbuild hid]
      constructor
      · intro h
        refine ⟨hlt, .inr ⟨id, _, hentry, ?_, ?_⟩⟩
        · rw [← graph_name hbuild hentry, hname]
        · rcases h with ⟨-, hpath⟩ | hpath
          · exact .inr hpath.to_reflTransGen
          · exact .inl hpath
      · rintro ⟨-, hempty | ⟨f, entry, hf, hentryName, hpath⟩⟩
        · exact absurd hempty hfocus
        · rw [hsame f entry hf hentryName] at hpath
          rcases hpath with hpath | hpath
          · exact .inr hpath
          · by_cases hself : i = id
            · subst hself
              exact .inr .refl
            · rcases Relation.reflTransGen_iff_eq_or_transGen.1 hpath with heq | hpath
              · exact absurd heq.symm hself
              · exact .inl ⟨hself, hpath⟩

end Graph

section Nodes

variable (graph : DependencyGraph) (entries : List ProcessListEntry) (visible : Nat → Bool)
  (layers : Nat → Nat)

def nodeOf (i : Nat) : GraphNodeView where
  id := i
  entry := entries[i]?
  layer := layers i
  dependencies := ((graph.dependencies i).filter visible).map graph.name
  dependents := ((graph.dependents i).filter visible).map graph.name
  blockedBy := blockedRoots graph entries i
  externalDependencies := ((graph.dependencies i).filter fun d => !visible d).map graph.name

/-- The edges that are shown, below each node in its own order. -/
def edgesOf (order : List Nat) : List (Nat × Nat) :=
  order.flatMap fun i => ((graph.dependencies i).filter visible).map fun d => (i, d)

theorem foldl_addDependency (l : List Nat) (acc : GraphNodeView × Nat) :
    l.foldl (addDependency graph visible) acc =
      ({ acc.1 with
          dependencies := acc.1.dependencies ++ (l.filter visible).map graph.name
          externalDependencies :=
            acc.1.externalDependencies ++ (l.filter fun d => !visible d).map graph.name },
        acc.2 + (l.filter visible).length) := by
  induction l generalizing acc with
  | nil => simp
  | cons d rest ih =>
    rw [List.foldl_cons, ih, addDependency]
    cases hd : visible d with
    | true => simp [hd, Nat.add_assoc, Nat.add_comm 1]
    | false => simp [hd]

theorem addNode_eq (view : GraphView) (i : Nat) :
    addNode graph entries visible layers view i =
      if visible i then
        { view with
          nodes := view.nodes ++ [nodeOf graph entries visible layers i]
          edgeCount := view.edgeCount + ((graph.dependencies i).filter visible).length }
      else view := by
  rw [addNode, foldl_addDependency]
  rfl

theorem foldl_addNode (l : List Nat) (view : GraphView) :
    l.foldl (addNode graph entries visible layers) view =
      { view with
        nodes := view.nodes ++ (l.filter visible).map (nodeOf graph entries visible layers)
        edgeCount := view.edgeCount + (edgesOf graph visible (l.filter visible)).length } := by
  induction l generalizing view with
  | nil => simp [edgesOf]
  | cons i rest ih =>
    rw [List.foldl_cons, ih, addNode_eq]
    cases hi : visible i with
    | true => simp [hi, edgesOf, Nat.add_assoc]
    | false => simp [hi]

end Nodes

instance nodeLeTotal : Std.Total GraphNodeView.le where
  total left right := by
    unfold GraphNodeView.le
    omega

instance nodeLeTrans : IsTrans GraphNodeView GraphNodeView.le where
  trans left middle right := by
    unfold GraphNodeView.le
    omega

def viewOf (graph : DependencyGraph) (entries : List ProcessListEntry) (visible : Nat → Bool)
    (focus : String) : GraphView where
  focus := focus
  nodes := ((graph.topologicalOrder.filter visible).map (nodeOf graph entries visible
    (LongestPath.layers graph.dependencies visible graph.topologicalOrder))).insertionSort
      GraphNodeView.le
  edgeCount := (edgesOf graph visible (graph.topologicalOrder.filter visible)).length

theorem buildView_eq (hbuild : DependencyGraph.build (dependencyConfigs entries) = .ok graph)
    (hvisible : visibleNodes graph focus = .ok visible) :
    buildView entries focus = .ok (viewOf graph entries visible focus) := by
  rw [buildView, hbuild]
  dsimp only
  rw [hvisible]
  dsimp only
  rw [foldl_addNode, List.nil_append, Nat.zero_add]
  rfl

theorem visibleNodes_isOk (hbuild : DependencyGraph.build (dependencyConfigs entries) = .ok graph)
    (hfocus : focus = "" ∨ ∃ entry ∈ entries, entry.name = focus) :
    ∃ visible, visibleNodes graph focus = .ok visible := by
  rw [visibleNodes]
  split
  · exact ⟨_, rfl⟩
  · rename_i hne
    obtain ⟨entry, hentry, hname⟩ := hfocus.resolve_left hne
    obtain ⟨i, hi⟩ := List.mem_iff_getElem?.1 hentry
    have hlt := (List.getElem?_eq_some_iff.1 hi).1
    rw [← graph_size hbuild] at hlt
    have hfind : graph.find focus = some i :=
      DependencyGraph.find_eq_some.2 ⟨hlt, (graph_name hbuild hi).trans hname⟩
    rw [hfind]
    exact ⟨_, rfl⟩

section View

variable {entries : List ProcessListEntry} {graph : DependencyGraph} {visible : Nat → Bool}
  {focus : String}
  (hbuild : DependencyGraph.build (dependencyConfigs entries) = .ok graph)
  (hvisible : visibleNodes graph focus = .ok visible)

include hbuild hvisible

theorem mem_visible_iff :
    i ∈ graph.topologicalOrder.filter visible ↔ InView entries focus i := by
  rw [List.mem_filter, DependencyGraph.mem_order]
  constructor
  · rintro ⟨hi, hshown⟩
    exact (visible_iff hbuild hvisible hi).1 hshown
  · intro hview
    have hi : i < graph.size := by
      rw [graph_size hbuild]
      exact hview.1
    exact ⟨hi, (visible_iff hbuild hvisible hi).2 hview⟩

theorem mem_nodes (hnode : node ∈ (viewOf graph entries visible focus).nodes) :
    InView entries focus node.id ∧ node = nodeOf graph entries visible
      (LongestPath.layers graph.dependencies visible graph.topologicalOrder) node.id := by
  obtain ⟨i, hi, rfl⟩ := List.mem_map.1 ((List.mem_insertionSort _).1 hnode)
  exact ⟨(mem_visible_iff hbuild hvisible).1 hi, rfl⟩

theorem nodeOf_splits (hentry : entries[i]? = some entry) (layers : Nat → Nat) :
    SplitsDependencies entries focus entry (nodeOf graph entries visible layers i) := by
  have hmap := graph_dependencies hbuild hentry
  have hperm : ((nodeOf graph entries visible layers i).dependencies ++
      (nodeOf graph entries visible layers i).externalDependencies).Perm entry.dependsOn := by
    rw [← hmap, nodeOf, ← List.map_append]
    exact (List.filter_append_perm visible _).map _
  constructor
  · exact hperm
  · rw [hperm.nodup_iff]
    have hconfig := List.mem_of_getElem? (getElem?_configs hentry)
    exact (DependencyGraph.resolves_of_build hbuild).deps_nodup _ hconfig
  · intro j other hother hmem
    rw [← hmap] at hmem
    obtain ⟨d, hd, hname⟩ := List.mem_map.1 hmem
    have hdlt := graph.deps_lt i d hd
    have hj := (List.getElem?_eq_some_iff.1 hother).1
    have hsame : ∀ e ∈ graph.dependencies i, graph.name e = other.name → e = j := by
      intro e he hename
      rw [← graph_name hbuild hother] at hename
      exact graph_name_inj hbuild (graph_size hbuild ▸ graph.deps_lt i e he) hj hename
    obtain rfl := hsame d hd hname
    rw [← visible_iff hbuild hvisible hdlt, nodeOf, List.mem_map]
    constructor
    · rintro ⟨e, he, hename⟩
      obtain ⟨he, hshown⟩ := List.mem_filter.1 he
      rw [hsame e he hename] at hshown
      exact hshown
    · exact fun hshown => ⟨d, List.mem_filter.2 ⟨hd, hshown⟩, hname⟩

theorem layers_longest (hview : InView entries focus i) :
    IsGreatest {k | LongestPath.Path (DependsAt entries) (InView entries focus) k i}
      (LongestPath.layers graph.dependencies visible graph.topologicalOrder i) := by
  obtain ⟨hi, hshown⟩ := List.mem_filter.1 ((mem_visible_iff hbuild hvisible).2 hview)
  have hlt := DependencyGraph.mem_order.1 hi
  have hgreatest := LongestPath.layers_isGreatest graph.order_closed graph.order_nodup hi hshown
  have hpaths : {k | LongestPath.Path (DependsAt entries) (InView entries focus) k i} =
      {k | LongestPath.Path (fun x y => y ∈ graph.dependencies x) (fun x => visible x = true) k
        i} := by
    ext k
    constructor
    · intro hpath
      apply LongestPath.Path.mono (· < graph.size) hpath hlt
      · exact fun x y _ hedge => graph.deps_lt x y ((dependsAt_iff hbuild).1 hedge)
      · exact fun x y hedge => (dependsAt_iff hbuild).1 hedge
      · exact fun x hx hshown => (visible_iff hbuild hvisible hx).2 hshown
    · intro hpath
      apply LongestPath.Path.mono (· < graph.size) hpath hlt
      · exact fun x y _ hedge => graph.deps_lt x y hedge
      · exact fun x y hedge => (dependsAt_iff hbuild).2 hedge
      · exact fun x hx hshown => (visible_iff hbuild hvisible hx).1 hshown
  rw [hpaths]
  exact hgreatest

theorem layer_longest (hnode : node ∈ (viewOf graph entries visible focus).nodes) :
    IsGreatest {k | LongestPath.Path (DependsAt entries) (InView entries focus) k node.id}
      node.layer := by
  obtain ⟨hview, heq⟩ := mem_nodes hbuild hvisible hnode
  have hlayer : node.layer =
      LongestPath.layers graph.dependencies visible graph.topologicalOrder node.id :=
    congrArg GraphNodeView.layer heq
  rw [hlayer]
  exact layers_longest hbuild hvisible hview

theorem mem_edges_iff :
    (i, j) ∈ edgesOf graph visible (graph.topologicalOrder.filter visible) ↔
      ShownEdge entries focus i j := by
  rw [edgesOf, List.mem_flatMap, ShownEdge, dependsAt_iff hbuild]
  constructor
  · rintro ⟨x, hx, hedge⟩
    obtain ⟨d, hd, heq⟩ := List.mem_map.1 hedge
    obtain ⟨hd, hshown⟩ := List.mem_filter.1 hd
    cases heq
    have hj := graph.deps_lt i j hd
    exact ⟨(mem_visible_iff hbuild hvisible).1 hx, (visible_iff hbuild hvisible hj).1 hshown, hd⟩
  · rintro ⟨hi, hj, hd⟩
    have hshown := (visible_iff hbuild hvisible (graph.deps_lt i j hd)).2 hj
    exact ⟨i, (mem_visible_iff hbuild hvisible).2 hi,
      List.mem_map.2 ⟨j, List.mem_filter.2 ⟨hd, hshown⟩, rfl⟩⟩

omit hbuild hvisible in
theorem edges_nodup (graph : DependencyGraph) (visible : Nat → Bool) :
    (edgesOf graph visible (graph.topologicalOrder.filter visible)).Nodup := by
  rw [edgesOf, List.nodup_flatMap]
  constructor
  · intro i _
    have hnodup := (graph.deps_nodup i).filter visible
    exact hnodup.map fun a b heq => (Prod.mk.inj heq).2
  · apply (graph.order_nodup.filter visible).imp
    intro a b hne edge ha hb
    obtain ⟨_, -, rfl⟩ := List.mem_map.1 ha
    obtain ⟨_, -, heq⟩ := List.mem_map.1 hb
    exact hne (Prod.mk.inj heq).1.symm

omit hbuild hvisible in
theorem nodes_sorted (graph : DependencyGraph) (entries : List ProcessListEntry)
    (visible : Nat → Bool) (focus : String) :
    (viewOf graph entries visible focus).nodes.Pairwise fun left right =>
      left.layer < right.layer ∨ left.layer = right.layer ∧ left.id < right.id := by
  have hsorted : (viewOf graph entries visible focus).nodes.Pairwise GraphNodeView.le :=
    List.pairwise_insertionSort ..
  have hids : ((viewOf graph entries visible focus).nodes.map (·.id)).Nodup := by
    have hperm : (viewOf graph entries visible focus).nodes.Perm
        ((graph.topologicalOrder.filter visible).map (nodeOf graph entries visible
          (LongestPath.layers graph.dependencies visible graph.topologicalOrder))) :=
      List.perm_insertionSort ..
    rw [(hperm.map _).nodup_iff, List.map_map]
    simpa [Function.comp_def, nodeOf] using graph.order_nodup.filter visible
  have hapart : (viewOf graph entries visible focus).nodes.Pairwise fun left right =>
      left.id ≠ right.id := List.pairwise_map.1 hids
  apply (hsorted.and hapart).imp
  rintro left right ⟨hle, hne⟩
  rcases hle with hlt | ⟨heq, hid⟩
  · exact .inl hlt
  · exact .inr ⟨heq, by omega⟩

theorem viewOf_shows : Shows entries focus (viewOf graph entries visible focus) where
  focused := rfl
  shown := by
    intro i
    constructor
    · rintro ⟨node, hnode, rfl⟩
      exact (mem_nodes hbuild hvisible hnode).1
    · intro hview
      refine ⟨_, (List.mem_insertionSort _).2 (List.mem_map_of_mem ?_), rfl⟩
      exact (mem_visible_iff hbuild hvisible).2 hview
  entry := by
    intro node hnode
    obtain ⟨hview, heq⟩ := mem_nodes hbuild hvisible hnode
    obtain ⟨entry, hentry⟩ : ∃ entry, entries[node.id]? = some entry :=
      ⟨_, List.getElem?_eq_getElem hview.1⟩
    refine ⟨entry, hentry, (congrArg GraphNodeView.entry heq).trans hentry, ?_⟩
    have hsplits := nodeOf_splits hbuild hvisible hentry
      (LongestPath.layers graph.dependencies visible graph.topologicalOrder)
    rw [← heq] at hsplits
    exact hsplits
  layer := by
    intro node hnode
    exact layer_longest hbuild hvisible hnode
  edges := ⟨_, edges_nodup graph visible, rfl, fun i j => mem_edges_iff hbuild hvisible⟩
  rising := by
    intro node hnode other hother hedge
    have hother := (layer_longest hbuild hvisible hother).1
    exact (layer_longest hbuild hvisible hnode).2 (LongestPath.Path.step hother hedge.2.2 hedge.1)
  sorted := nodes_sorted graph entries visible focus

end View

/-- A view of an accepted graph, with a focus in it or none, shows what it has to. -/
theorem buildView_shows (hbuild : DependencyGraph.build (dependencyConfigs entries) = .ok graph)
    (hfocus : focus = "" ∨ ∃ entry ∈ entries, entry.name = focus) :
    ∃ view, buildView entries focus = .ok view ∧ Shows entries focus view := by
  obtain ⟨visible, hvisible⟩ := visibleNodes_isOk hbuild hfocus
  exact ⟨_, buildView_eq hbuild hvisible, viewOf_shows hbuild hvisible⟩

def sampleEntries : List ProcessListEntry :=
  [{ name := "db" }, { name := "cache" }, { name := "api", dependsOn := ["db", "cache"] },
    { name := "worker", dependsOn := ["api"] }]

theorem buildView_shows_db : ∃ view, buildView sampleEntries "db" = .ok view ∧
    Shows sampleEntries "db" view := by
  obtain ⟨graph, hbuild, -⟩ := DependencyGraph.build_any (dependencyConfigs sampleEntries)
    (fun _ => true) (by decide)
  exact buildView_shows hbuild (.inr ⟨_, List.mem_cons_self, rfl⟩)

example : ((buildView sampleEntries "db").toOption.map fun view =>
    view.nodes.map fun node => (node.id, node.layer, node.externalDependencies)) =
      some [(0, 0, []), (2, 1, ["cache"]), (3, 2, [])] := by decide

end PmTiny.Cli
