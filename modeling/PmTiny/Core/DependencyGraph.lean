import Mathlib.Data.List.Nodup
import Mathlib.Data.List.Sort
import Mathlib.Data.List.GetD
import PmTiny.Lib.Search
import PmTiny.Lib.TopologicalSort

namespace PmTiny
set_option autoImplicit true

structure DependencyNodeConfig where
  name : String
  dependsOn : List String
  deriving DecidableEq, Repr

inductive DependencyErrorCode where
  | emptyName | duplicateName | duplicateDependency | selfDependency | missingDependency | cycle
  deriving DecidableEq, Repr

structure DependencyError where
  code : DependencyErrorCode
  message : String
  cyclePath : List String := []
  deriving DecidableEq, Repr

/-- The nodes that depend directly on `d`, in the order of their ids. -/
def dependentsOf (dependencies : Nat → List Nat) (n d : Nat) : List Nat :=
  (List.range n).filter fun i => d ∈ dependencies i

/-- An accepted graph: distinct names, resolved dependencies and a complete topological order. -/
structure DependencyGraph where
  names : List String
  dependencies : Nat → List Nat
  topologicalOrder : List Nat
  names_nodup : names.Nodup
  deps_nodup : ∀ i, (dependencies i).Nodup
  deps_lt : ∀ i, ∀ d ∈ dependencies i, d < names.length
  order_eq : topologicalOrder = TopologicalSort.sort names.length
    (dependentsOf dependencies names.length) fun i => (dependencies i).length
  order_length : topologicalOrder.length = names.length

def checkNames : List DependencyNodeConfig → List String → Except DependencyError (List String)
  | [], names => .ok names
  | config :: configs, names =>
    if config.name = "" then
      .error { code := .emptyName, message := "Program name cannot be empty" }
    else if config.name ∈ names then
      .error { code := .duplicateName, message := "Duplicate program name: " ++ config.name }
    else checkNames configs (names ++ [config.name])

def resolve (names : List String) (name : String) :
    List String → List String → Except DependencyError (List Nat)
  | [], _ => .ok []
  | dependency :: rest, seen =>
    if dependency ∈ seen then
      .error { code := .duplicateDependency, message :=
        "Program `" ++ name ++ "` has duplicate dependency `" ++ dependency ++ "`" }
    else if dependency = name then
      .error { code := .selfDependency, message :=
        "Program `" ++ name ++ "` cannot depend on itself" }
    else match names.findIdx? (· == dependency) with
      | none => .error { code := .missingDependency, message :=
          "Program `" ++ name ++ "` depends on missing `" ++ dependency ++ "`" }
      | some id =>
        match resolve names name rest (seen ++ [dependency]) with
        | .error e => .error e
        | .ok ids => .ok (id :: ids)

def resolveAll (names : List String) :
    List DependencyNodeConfig → Except DependencyError (List (List Nat))
  | [] => .ok []
  | config :: configs =>
    match resolve names config.name config.dependsOn [] with
    | .error e => .error e
    | .ok ids =>
      match resolveAll names configs with
      | .error e => .error e
      | .ok rest => .ok (ids :: rest)

inductive Color where
  | white | gray | black
  deriving DecidableEq

/-- Depth-first search for a cycle; the error carries the part of the stack that closes it. -/
def visit (dependencies : Nat → List Nat) :
    Nat → Nat → (Nat → Color) → List Nat → Except (List Nat) (Nat → Color)
  | 0, _, color, _ => .ok color
  | fuel + 1, id, color, stack =>
    let stack := stack ++ [id]
    let step (color : Nat → Color) (dependency : Nat) : Except (List Nat) (Nat → Color) :=
      match (if color dependency = .white then visit dependencies fuel dependency color stack
        else .ok color) with
      | .error path => .error path
      | .ok color =>
        if color dependency = .gray then
          .error (stack.dropWhile (· ≠ dependency) ++ [dependency])
        else .ok color
    match (dependencies id).foldlM step (Function.update color id .gray) with
    | .error path => .error path
    | .ok color => .ok (Function.update color id .black)

def findCycle (n : Nat) (dependencies : Nat → List Nat) : List Nat :=
  match (List.range n).foldlM (fun color i =>
      if color i = Color.white then visit dependencies n i color [] else .ok color)
      (fun _ => Color.white) with
  | .error path => path
  | .ok _ => []

def cycleMessage (path : List String) : String :=
  let message := "Program dependency cycle detected"
  if path = [] then message else message ++ ": " ++ " -> ".intercalate path

def cycleError (names : List String) (dependencies : Nat → List Nat) : DependencyError :=
  let path := (findCycle names.length dependencies).map fun id => names.getD id ""
  { code := .cycle, message := cycleMessage path, cyclePath := path }

theorem checkNames_ok (h : checkNames configs names = .ok result) (hn : names.Nodup) :
    result = names ++ configs.map (·.name) ∧ result.Nodup ∧ ∀ c ∈ configs, c.name ≠ "" := by
  induction configs generalizing names with
  | nil =>
    cases h
    simpa using hn
  | cons config configs ih =>
    rw [checkNames] at h
    split at h
    · cases h
    · split at h
      · cases h
      · rename_i he hd
        have hn' : (names ++ [config.name]).Nodup := by
          rw [← List.concat_eq_append]
          exact hn.concat hd
        obtain ⟨hr, hrn, hne⟩ := ih h hn'
        refine ⟨by simpa using hr, hrn, ?_⟩
        simpa [he] using hne

theorem resolve_ok (h : resolve names name deps seen = .ok ids) :
    ids.map (fun id => names.getD id "") = deps ∧ (∀ id ∈ ids, id < names.length) ∧
      deps.Nodup ∧ (∀ d ∈ deps, d ∉ seen ∧ d ≠ name) := by
  induction deps generalizing seen ids with
  | nil =>
    cases h
    simp
  | cons d rest ih =>
    rw [resolve] at h
    split at h
    · cases h
    · split at h
      · cases h
      · split at h
        · cases h
        · rename_i hs hne _ id hid
          split at h
          · cases h
          · rename_i _ ids' hids
            cases h
            obtain ⟨hmap, hlt, hnd, hmem⟩ := ih hids
            obtain ⟨hidlt, hget, -⟩ := List.findIdx?_eq_some_iff_getElem.1 hid
            have hname : names.getD id "" = d := by
              rw [List.getD_eq_getElem _ _ hidlt]
              simpa using hget
            refine ⟨by rw [List.map_cons, hmap, hname], by simpa using ⟨hidlt, hlt⟩, ?_, ?_⟩
            · refine List.nodup_cons.2 ⟨fun hd => (hmem d hd).1 (by simp), hnd⟩
            · intro x hx
              rcases List.mem_cons.1 hx with rfl | hx
              · exact ⟨hs, hne⟩
              · exact ⟨fun hxs => (hmem x hx).1 (by simp [hxs]), (hmem x hx).2⟩

theorem resolveAll_ok (h : resolveAll names configs = .ok lists) :
    List.Forall₂ (fun c ids => resolve names c.name c.dependsOn [] = .ok ids) configs lists := by
  induction configs generalizing lists with
  | nil =>
    cases h
    exact .nil
  | cons config configs ih =>
    rw [resolveAll] at h
    split at h
    · cases h
    · split at h
      · cases h
      · rename_i _ ids hids _ rest hrest
        cases h
        exact .cons hids (ih hrest)

theorem nodup_of_resolve (h : resolve names name deps seen = .ok ids) : ids.Nodup := by
  obtain ⟨hmap, -, hnd, -⟩ := resolve_ok h
  rw [← hmap] at hnd
  exact hnd.of_map _

theorem resolveAll_getD (h : resolveAll names configs = .ok lists) (i : Nat) :
    (lists.getD i []).Nodup ∧ ∀ d ∈ lists.getD i [], d < names.length := by
  by_cases hi : i < lists.length
  · rw [List.getD_eq_getElem _ _ hi]
    have hf := (resolveAll_ok h).get (i := i) (by rw [(resolveAll_ok h).length_eq]; exact hi) hi
    exact ⟨nodup_of_resolve hf, (resolve_ok hf).2.1⟩
  · rw [List.getD_eq_default _ _ (by omega)]
    simp

namespace DependencyGraph

def size (graph : DependencyGraph) : Nat := graph.names.length

def find (graph : DependencyGraph) (name : String) : Option Nat :=
  graph.names.findIdx? (· == name)

def name (graph : DependencyGraph) (id : Nat) : String := graph.names.getD id ""

def dependents (graph : DependencyGraph) (id : Nat) : List Nat :=
  dependentsOf graph.dependencies graph.size id

def reverseTopologicalOrder (graph : DependencyGraph) : List Nat := graph.topologicalOrder.reverse

def transitiveDependents (graph : DependencyGraph) (id : Nat) : List Nat :=
  (Search.reachable graph.size graph.dependents id).insertionSort fun left right =>
    graph.topologicalOrder.idxOf left ≤ graph.topologicalOrder.idxOf right

def empty : DependencyGraph where
  names := []
  dependencies := fun _ => []
  topologicalOrder := []
  names_nodup := List.nodup_nil
  deps_nodup := fun _ => List.nodup_nil
  deps_lt := by simp
  order_eq := rfl
  order_length := rfl

/-- Nodes that exist are resolved against the distinct names and ordered; a cycle is reported. -/
def build (configs : List DependencyNodeConfig) : Except DependencyError DependencyGraph :=
  match hn : checkNames configs [] with
  | .error e => .error e
  | .ok names =>
    match hd : resolveAll names configs with
    | .error e => .error e
    | .ok lists =>
      let dependencies := fun i => lists.getD i []
      let order := TopologicalSort.sort names.length (dependentsOf dependencies names.length)
        fun i => (dependencies i).length
      if ho : order.length = names.length then
        .ok { names := names
              dependencies := dependencies
              topologicalOrder := order
              names_nodup := (checkNames_ok hn List.nodup_nil).2.1
              deps_nodup := fun i => (resolveAll_getD hd i).1
              deps_lt := fun i => (resolveAll_getD hd i).2
              order_eq := rfl
              order_length := ho }
      else .error (cycleError names dependencies)

variable {graph : DependencyGraph} {configs : List DependencyNodeConfig} {id x : Nat} {s : String}

theorem find_eq_some :
    graph.find s = some id ↔ id < graph.size ∧ graph.name id = s := by
  rw [find, List.findIdx?_eq_some_iff_getElem]
  constructor
  · rintro ⟨hlt, hget, -⟩
    refine ⟨hlt, ?_⟩
    rw [DependencyGraph.name, List.getD_eq_getElem _ _ hlt]
    simpa using hget
  · rintro ⟨hlt, hname⟩
    rw [DependencyGraph.name, List.getD_eq_getElem _ _ hlt] at hname
    refine ⟨hlt, by simpa using hname, fun j hj he => ?_⟩
    have hj' : j < graph.names.length := hj.trans hlt
    have heq : graph.names[j] = graph.names[id] := by
      rw [hname]
      simpa using he
    have hinj := (graph.names_nodup.getElem_inj_iff).1 heq
    omega

theorem find_name (h : id < graph.size) :
    graph.find (graph.name id) = some id := find_eq_some.2 ⟨h, rfl⟩

theorem find_inj (ha : graph.find a = some id)
    (hb : graph.find b = some id) : a = b :=
  (find_eq_some.1 ha).2.symm.trans (find_eq_some.1 hb).2

theorem find_isSome :
    (∃ id, graph.find s = some id) ↔ s ∈ graph.names := by
  rw [← Option.isSome_iff_exists, find, List.findIdx?_isSome]
  simp

theorem transpose (graph : DependencyGraph) :
    TopologicalSort.Transpose graph.size graph.dependencies graph.dependents where
  deps_nodup := graph.deps_nodup
  deps_lt := fun i _ => graph.deps_lt i
  succ_nodup := fun _ => List.nodup_range.filter _
  mem_succ := by simp [dependents, dependentsOf]

theorem order_nodup (graph : DependencyGraph) : graph.topologicalOrder.Nodup := by
  rw [graph.order_eq]
  exact TopologicalSort.sort_nodup graph.transpose

theorem mem_order : id ∈ graph.topologicalOrder ↔ id < graph.size := by
  have hl := graph.order_length
  rw [graph.order_eq] at hl ⊢
  exact ⟨TopologicalSort.sort_lt graph.transpose, TopologicalSort.mem_sort graph.transpose hl⟩

theorem order_closed (graph : DependencyGraph) :
    TopologicalSort.Closed graph.dependencies graph.topologicalOrder := by
  rw [graph.order_eq]
  exact TopologicalSort.sort_closed graph.transpose

theorem mem_dependents :
    i ∈ graph.dependents d ↔ i < graph.size ∧ d ∈ graph.dependencies i :=
      graph.transpose.mem_succ d i

theorem mem_transitiveDependents (h : id < graph.size) :
    x ∈ graph.transitiveDependents id ↔
      x ≠ id ∧ Relation.TransGen (fun a b => b ∈ graph.dependents a) id x := by
  rw [transitiveDependents, List.mem_insertionSort]
  exact Search.mem_reachable (fun d i hi => (mem_dependents.1 hi).1) h

theorem lt_of_transitiveDependents (h : id < graph.size)
    (hx : x ∈ graph.transitiveDependents id) : x < graph.size := by
  obtain ⟨-, ht⟩ := (mem_transitiveDependents h).1 hx
  cases ht with
  | single hd => exact (mem_dependents.1 hd).1
  | tail _ hd => exact (mem_dependents.1 hd).1

theorem dependencies_ne_nil (h : id < graph.size)
    (hx : x ∈ graph.transitiveDependents id) : graph.dependencies x ≠ [] := by
  obtain ⟨-, ht⟩ := (mem_transitiveDependents h).1 hx
  have hne : ∀ a, x ∈ graph.dependents a → graph.dependencies x ≠ [] :=
    fun a ha => List.ne_nil_of_mem (mem_dependents.1 ha).2
  cases ht with
  | single hd => exact hne _ hd
  | tail _ hd => exact hne _ hd

theorem dependents_subset_transitive (h : id < graph.size)
    (hx : x ∈ graph.dependents id) : x ∈ graph.transitiveDependents id := by
  refine (mem_transitiveDependents h).2 ⟨fun he => ?_, .single hx⟩
  subst x
  have hd := (mem_dependents.1 hx).2
  have hlt := graph.order_closed.idxOf_lt (mem_order.2 h) hd
  omega

/-- The dependency names of a registered name. -/
def dependencyNames (graph : DependencyGraph) (name : String) : List String :=
  match graph.find name with
  | none => []
  | some id => (graph.dependencies id).map graph.name

theorem build_eq_ok (h : build configs = .ok graph) :
    ∃ lists, checkNames configs [] = .ok graph.names ∧ resolveAll graph.names configs = .ok lists ∧
      graph.dependencies = fun i => lists.getD i [] := by
  unfold build at h
  split at h
  · cases h
  · split at h
    · cases h
    · dsimp only at h
      split at h
      · cases h
        exact ⟨_, ‹checkNames configs [] = _›, ‹resolveAll _ configs = _›, rfl⟩
      · cases h

theorem build_any (configs : List DependencyNodeConfig) (test : DependencyGraph → Bool)
    (h : (build configs).toOption.any test = true) :
    ∃ graph, build configs = .ok graph ∧ test graph = true := by
  cases hb : build configs with
  | error e =>
    rw [hb] at h
    cases h
  | ok graph =>
    rw [hb] at h
    exact ⟨graph, rfl, h⟩

theorem build_names (h : build configs = .ok graph) :
    graph.names = configs.map (·.name) := by
  obtain ⟨-, hn, -, -⟩ := build_eq_ok h
  simpa using (checkNames_ok hn List.nodup_nil).1

theorem build_find (h : build configs = .ok graph) (hc : configs[i]? = some config) :
    graph.find config.name = some i := by
  have hlt : i < configs.length := (List.getElem?_eq_some_iff.1 hc).1
  have hi : i < graph.size := by rw [size, build_names h, List.length_map]; exact hlt
  refine find_eq_some.2 ⟨hi, ?_⟩
  simp [DependencyGraph.name, build_names h, hc]

theorem build_dependencyNames (h : build configs = .ok graph) (hc : config ∈ configs) :
    graph.dependencyNames config.name = config.dependsOn := by
  obtain ⟨i, hi⟩ := List.mem_iff_getElem?.1 hc
  obtain ⟨lists, -, hd, hdeps⟩ := build_eq_ok h
  have hlen := (resolveAll_ok hd).length_eq
  have hlt : i < configs.length := (List.getElem?_eq_some_iff.1 hi).1
  have hf := (resolveAll_ok hd).get hlt (by omega)
  have hget : configs.get ⟨i, hlt⟩ = config := (List.getElem?_eq_some_iff.1 hi).2
  rw [hget] at hf
  rw [dependencyNames, build_find h hi]
  simp only [hdeps, List.getD_eq_getElem _ _ (show i < lists.length by omega)]
  exact (resolve_ok hf).1

/-- The configurations that `build` accepts. -/
structure Valid (configs : List DependencyNodeConfig) : Prop where
  name_ne : ∀ c ∈ configs, c.name ≠ ""
  names_nodup : (configs.map (·.name)).Nodup
  deps_nodup : ∀ c ∈ configs, c.dependsOn.Nodup
  not_self : ∀ c ∈ configs, c.name ∉ c.dependsOn
  registered : ∀ c ∈ configs, ∀ d ∈ c.dependsOn, d ∈ configs.map (·.name)
  acyclic : ∃ rank : String → Nat, ∀ c ∈ configs, ∀ d ∈ c.dependsOn, rank d < rank c.name

theorem checkNames_of_valid {names : List String} (hne : ∀ c ∈ configs, c.name ≠ "")
    (hn : (names ++ configs.map (·.name)).Nodup) :
    checkNames configs names = .ok (names ++ configs.map (·.name)) := by
  induction configs generalizing names with
  | nil => simp [checkNames]
  | cons config configs ih =>
    have hd : config.name ∉ names := by
      intro hm
      exact (List.disjoint_of_nodup_append hn hm) (by simp)
    rw [checkNames, if_neg (hne config (by simp)), if_neg hd,
      ih (fun c hc => hne c (by simp [hc])) (by simpa using hn)]
    simp

theorem resolve_of_valid {name : String} {names : List String} (hself : name ∉ deps)
    (hreg : ∀ d ∈ deps, d ∈ names)
    (hn : (seen ++ deps).Nodup) : ∃ ids, resolve names name deps seen = .ok ids := by
  induction deps generalizing seen with
  | nil => exact ⟨[], rfl⟩
  | cons d rest ih =>
    have hd : d ∉ seen := fun hm => (List.disjoint_of_nodup_append hn hm) (by simp)
    have hs : d ≠ name := fun he => hself (by simp [he])
    obtain ⟨ids, hids⟩ := ih (fun hm => hself (by simp [hm])) (fun x hx => hreg x (by simp [hx]))
      (show ((seen ++ [d]) ++ rest).Nodup by simpa using hn)
    have hf : (names.findIdx? (· == d)).isSome := by
      rw [List.findIdx?_isSome]
      simpa using hreg d (by simp)
    obtain ⟨id, hid⟩ := Option.isSome_iff_exists.1 hf
    exact ⟨id :: ids, by rw [resolve, if_neg hd, if_neg hs, hid]; simp only [hids]⟩

theorem resolveAll_of_valid {names : List String}
    (h : ∀ c ∈ configs, ∃ ids, resolve names c.name c.dependsOn [] = .ok ids) :
    ∃ lists, resolveAll names configs = .ok lists := by
  induction configs with
  | nil => exact ⟨[], rfl⟩
  | cons config configs ih =>
    obtain ⟨ids, hids⟩ := h config (by simp)
    obtain ⟨rest, hrest⟩ := ih fun c hc => h c (by simp [hc])
    exact ⟨ids :: rest, by simp [resolveAll, hids, hrest]⟩

theorem build_isOk (h : Valid configs) : ∃ graph, build configs = .ok graph := by
  have hn : checkNames configs [] = .ok (configs.map (·.name)) :=
    checkNames_of_valid h.name_ne (by simpa using h.names_nodup)
  have hres : ∀ c ∈ configs, ∃ ids,
      resolve (configs.map (·.name)) c.name c.dependsOn [] = .ok ids := fun c hc =>
    resolve_of_valid (h.not_self c hc) (h.registered c hc) (by simpa using h.deps_nodup c hc)
  obtain ⟨lists, hd⟩ := resolveAll_of_valid hres
  obtain ⟨rank, hr⟩ := h.acyclic
  have hlen := (resolveAll_ok hd).length_eq
  have ht : TopologicalSort.Transpose (configs.map (·.name)).length (fun i => lists.getD i [])
      (dependentsOf (fun i => lists.getD i []) (configs.map (·.name)).length) :=
    ⟨fun i => (resolveAll_getD hd i).1, fun i _ => (resolveAll_getD hd i).2,
      fun _ => List.nodup_range.filter _, by simp [dependentsOf]⟩
  have ho := (TopologicalSort.length_sort_iff ht).2
    ⟨fun i => rank ((configs.map (·.name)).getD i ""), fun i hi d hdi => by
      rw [List.length_map] at hi
      have hf := (resolveAll_ok hd).get hi (by omega)
      have hmem : (configs.map (·.name)).getD d "" ∈ (configs.get ⟨i, hi⟩).dependsOn := by
        rw [← (resolve_ok hf).1]
        refine List.mem_map_of_mem ?_
        dsimp only at hdi
        rwa [List.getD_eq_getElem _ _ (show i < lists.length by omega)] at hdi
      simpa [hi] using hr _ (List.get_mem _ _) _ hmem⟩
  unfold build
  split
  · rename_i he
    rw [hn] at he
    cases he
  · rename_i names hn'
    rw [hn] at hn'
    cases hn'
    split
    · rename_i he
      rw [hd] at he
      cases he
    · rename_i lists' hd'
      rw [hd] at hd'
      cases hd'
      exact ⟨_, dif_pos ho⟩

theorem valid_of_build (h : build configs = .ok graph) : Valid configs := by
  obtain ⟨lists, hn, hd, -⟩ := build_eq_ok h
  obtain ⟨hnames, hnd, hne⟩ := checkNames_ok hn List.nodup_nil
  have hres : ∀ c ∈ configs, ∃ ids, resolve graph.names c.name c.dependsOn [] = .ok ids := by
    intro c hc
    obtain ⟨i, hi, rfl⟩ := List.getElem_of_mem hc
    exact ⟨_, (resolveAll_ok hd).get hi (by rw [← (resolveAll_ok hd).length_eq]; exact hi)⟩
  refine ⟨hne, by simpa [hnames] using hnd, ?_, ?_, ?_, ?_⟩
  · intro c hc
    obtain ⟨ids, hids⟩ := hres c hc
    exact (resolve_ok hids).2.2.1
  · intro c hc hm
    obtain ⟨ids, hids⟩ := hres c hc
    exact ((resolve_ok hids).2.2.2 _ hm).2 rfl
  · intro c hc d hdm
    obtain ⟨ids, hids⟩ := hres c hc
    obtain ⟨hmap, hlt, -, -⟩ := resolve_ok hids
    rw [← hmap] at hdm
    obtain ⟨id, hid, rfl⟩ := List.mem_map.1 hdm
    rw [List.getD_eq_getElem _ _ (hlt id hid), ← build_names h]
    exact List.getElem_mem _
  · refine ⟨fun s => match graph.find s with
      | none => 0
      | some id => graph.topologicalOrder.idxOf id, fun c hc d hdm => ?_⟩
    rw [← build_dependencyNames h hc, dependencyNames] at hdm
    split at hdm
    · simp at hdm
    · rename_i id hid
      obtain ⟨x, hx, rfl⟩ := List.mem_map.1 hdm
      simp only [hid, find_name (graph.deps_lt id x hx)]
      exact graph.order_closed.idxOf_lt (mem_order.2 (find_eq_some.1 hid).1) hx

end DependencyGraph
end PmTiny
