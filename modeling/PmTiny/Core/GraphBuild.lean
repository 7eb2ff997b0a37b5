import Mathlib.Data.List.Chain
import PmTiny.Core.DependencyGraph

namespace PmTiny
set_option autoImplicit true

/-- A closed walk along dependencies that meets no other node twice and has at least two nodes. -/
def CyclePath (dependencies : Nat → List Nat) (path : List Nat) : Prop :=
  ∃ d mid, path = d :: mid ++ [d] ∧ mid ≠ [] ∧ (d :: mid).Nodup ∧
    path.IsChain fun a b => b ∈ dependencies a

/-- The colours during the search: the gray nodes are on the stack, and the black ones can be listed
with their dependencies first. -/
structure Colored (n : Nat) (dependencies : Nat → List Nat) (color : Nat → Color)
    (stack : List Nat) : Prop where
  gray : ∀ i, color i = .gray ↔ i ∈ stack
  nodup : stack.Nodup
  lt : ∀ i ∈ stack, i < n
  finished : ∃ order, (∀ i, i ∈ order ↔ color i = .black) ∧
    TopologicalSort.Closed dependencies order

/-- What a search may do to the colours: it finishes nodes and leaves none that it entered gray. -/
structure Finishes (n : Nat) (dependencies : Nat → List Nat) (stack : List Nat)
    (color color' : Nat → Color) : Prop where
  colored : Colored n dependencies color' stack
  black : ∀ i, color i = .black → color' i = .black

variable {dependencies : Nat → List Nat} {color color' : Nat → Color} {stack : List Nat} {id : Nat}

theorem Colored.push (h : Colored n dependencies color stack) (hid : id < n)
    (hw : color id = .white) :
    Colored n dependencies (Function.update color id .gray) (stack ++ [id]) := by
  have hnot : id ∉ stack := by
    intro hm
    rw [(h.gray id).2 hm] at hw
    cases hw
  obtain ⟨order, hblack, hclosed⟩ := h.finished
  refine ⟨fun i => ?_, ?_, fun i hi => ?_, order, fun i => ?_, hclosed⟩
  · by_cases hi : i = id
    · simp [hi]
    · simp [hi, h.gray i]
  · rw [← List.concat_eq_append]
    exact h.nodup.concat hnot
  · rcases List.mem_append.1 hi with hi | hi
    · exact h.lt i hi
    · rw [List.mem_singleton.1 hi]
      exact hid
  · rw [hblack]
    by_cases hi : i = id
    · subst hi
      simp [hw]
    · simp [hi]

theorem Colored.pop (h : Colored n dependencies color (stack ++ [id]))
    (hdeps : ∀ d ∈ dependencies id, color d = .black) :
    Colored n dependencies (Function.update color id .black) stack := by
  obtain ⟨hn, -, hdis⟩ := List.nodup_append.1 h.nodup
  obtain ⟨order, hblack, hclosed⟩ := h.finished
  refine ⟨fun i => ?_, hn, fun i hi => h.lt i (List.mem_append_left _ hi), order ++ [id],
    fun i => ?_, hclosed.snoc fun d hd => (hblack d).2 (hdeps d hd)⟩
  · by_cases hi : i = id
    · subst hi
      simp only [Function.update_self, reduceCtorEq, false_iff]
      exact fun hm => hdis i hm i List.mem_cons_self rfl
    · simp [hi, h.gray i]
  · by_cases hi : i = id
    · simp [hi]
    · simp [hi, hblack i]

theorem cyclePath_of_gray (hself : ∀ i, i ∉ dependencies i) {d : Nat}
    (hc : (stack ++ [id]).IsChain fun a b => b ∈ dependencies a) (hn : (stack ++ [id]).Nodup)
    (hd : d ∈ dependencies id) (hm : d ∈ stack ++ [id]) :
    CyclePath dependencies ((stack ++ [id]).dropWhile (· ≠ d) ++ [d]) := by
  obtain ⟨pre, post, hsplit, hpre⟩ := List.eq_append_cons_of_mem hm
  have hdrop : (stack ++ [id]).dropWhile (· ≠ d) = d :: post := by
    rw [hsplit, List.dropWhile_append_of_pos]
    · simp
    · intro a ha
      have hne : a ≠ d := fun he => hpre (he ▸ ha)
      simpa using hne
  have hne : d ≠ id := fun he => hself id (he ▸ hd)
  rw [hsplit] at hc hn
  have hlast : (d :: post).getLast? = some id := by
    have hl := congrArg List.getLast? hsplit
    rw [List.getLast?_concat, List.getLast?_append_of_ne_nil _ (by simp)] at hl
    exact hl.symm
  rw [hdrop]
  refine ⟨d, post, by simp, ?_, (List.nodup_append.1 hn).2.1, ?_⟩
  · rintro rfl
    simp only [List.getLast?_singleton, Option.some.injEq] at hlast
    exact hne hlast
  · refine (hc.suffix ⟨pre, rfl⟩).append (List.isChain_singleton d) ?_
    intro a ha b hb
    rw [hlast] at ha
    simp only [Option.mem_def, Option.some.injEq, List.head?_cons] at ha hb
    subst ha hb
    exact hd

/-- What the search from a node returns: the node finished, or a cycle. -/
def VisitSpec (n : Nat) (dependencies : Nat → List Nat) (stack : List Nat) (color : Nat → Color)
    (id : Nat) (result : Except (List Nat) (Nat → Color)) : Prop :=
  (∀ color', result = .ok color' → Finishes n dependencies stack color color' ∧
    color' id = .black) ∧
    ∀ path, result = .error path → CyclePath dependencies path

def visitDependency (dependencies : Nat → List Nat) (fuel : Nat) (stack : List Nat)
    (color : Nat → Color) (dependency : Nat) : Except (List Nat) (Nat → Color) :=
  match (if color dependency = .white then visit dependencies fuel dependency color stack
    else .ok color) with
  | .error path => .error path
  | .ok color =>
    if color dependency = .gray then .error (stack.dropWhile (· ≠ dependency) ++ [dependency])
    else .ok color

theorem visit_succ (dependencies : Nat → List Nat) (fuel id : Nat) (color : Nat → Color)
    (stack : List Nat) : visit dependencies (fuel + 1) id color stack =
      ((dependencies id).foldlM (visitDependency dependencies fuel (stack ++ [id]))
        (Function.update color id .gray)).map fun color => Function.update color id .black := by
  rw [visit]
  split
  · rename_i path h
    have hfold : (dependencies id).foldlM (visitDependency dependencies fuel (stack ++ [id]))
        (Function.update color id .gray) = .error path := h
    rw [hfold]
    rfl
  · rename_i next h
    have hfold : (dependencies id).foldlM (visitDependency dependencies fuel (stack ++ [id]))
        (Function.update color id .gray) = .ok next := h
    rw [hfold]
    rfl

theorem foldlM_visit {f : (Nat → Color) → Nat → Except (List Nat) (Nat → Color)} (l : List Nat)
    (hf : ∀ color, ∀ d ∈ l, Colored n dependencies color stack →
      VisitSpec n dependencies stack color d (f color d))
    (h : Colored n dependencies color stack) :
    (∀ color', l.foldlM f color = .ok color' → Finishes n dependencies stack color color' ∧
      ∀ d ∈ l, color' d = .black) ∧
      ∀ path, l.foldlM f color = .error path → CyclePath dependencies path := by
  induction l generalizing color with
  | nil =>
    refine ⟨fun color' he => ?_, fun path he => ?_⟩
    · cases he
      exact ⟨⟨h, fun _ hb => hb⟩, by simp⟩
    · cases he
  | cons d l ih =>
    obtain ⟨hok, herr⟩ := hf color d List.mem_cons_self h
    rw [List.foldlM_cons]
    cases hd : f color d with
    | error path =>
      refine ⟨fun color' he => ?_, fun path' he => ?_⟩
      · cases he
      · cases he
        exact herr path hd
    | ok next =>
      obtain ⟨hfin, hblack⟩ := hok next hd
      obtain ⟨hrest, hcycle⟩ := ih (fun color e he => hf color e (List.mem_cons_of_mem d he))
        hfin.colored
      refine ⟨fun color' he => ?_, fun path he => hcycle path he⟩
      obtain ⟨hfin', hblack'⟩ := hrest color' he
      refine ⟨⟨hfin'.colored, fun i hi => hfin'.black i (hfin.black i hi)⟩, fun e he => ?_⟩
      rcases List.mem_cons.1 he with rfl | he
      · exact hfin'.black e hblack
      · exact hblack' e he

theorem Colored.length_le (h : Colored n dependencies color stack) : stack.length ≤ n := by
  have hsub : stack ⊆ List.range n := fun i hi => List.mem_range.2 (h.lt i hi)
  simpa using (h.nodup.subperm hsub).length_le

theorem visitSpec_error (h : CyclePath dependencies path) :
    VisitSpec n dependencies stack color id (.error path) := by
  constructor
  · intro _ he
    cases he
  · intro _ he
    cases he
    exact h

theorem visitSpec_ok (h : Finishes n dependencies stack color color') (hb : color' id = .black) :
    VisitSpec n dependencies stack color id (.ok color') := by
  constructor
  · intro _ he
    cases he
    exact ⟨h, hb⟩
  · intro _ he
    cases he

theorem visitDependency_spec (hself : ∀ i, i ∉ dependencies i) {d : Nat}
    (h : Colored n dependencies color (stack ++ [id]))
    (hc : (stack ++ [id]).IsChain fun a b => b ∈ dependencies a) (hd : d ∈ dependencies id)
    (hv : color d = .white → VisitSpec n dependencies (stack ++ [id]) color d
      (visit dependencies fuel d color (stack ++ [id]))) :
    VisitSpec n dependencies (stack ++ [id]) color d
      (visitDependency dependencies fuel (stack ++ [id]) color d) := by
  rw [visitDependency]
  cases hcd : color d with
  | white =>
    obtain ⟨hok, herr⟩ := hv hcd
    rw [if_pos rfl]
    cases hvisit : visit dependencies fuel d color (stack ++ [id]) with
    | error path => exact visitSpec_error (herr path hvisit)
    | ok next =>
      obtain ⟨hfin, hblack⟩ := hok next hvisit
      simp only [hblack, reduceCtorEq, if_false]
      exact visitSpec_ok hfin hblack
  | gray =>
    simp only [reduceCtorEq, if_false, hcd, if_true]
    exact visitSpec_error (cyclePath_of_gray hself hc h.nodup hd ((h.gray d).1 hcd))
  | black =>
    simp only [reduceCtorEq, if_false, hcd]
    exact visitSpec_ok ⟨h, fun _ hb => hb⟩ hcd

/-- The search below a white node finishes it or finds a cycle; the stack bounds its depth. -/
theorem visit_spec (hself : ∀ i, i ∉ dependencies i) (hlt : ∀ i, ∀ d ∈ dependencies i, d < n)
    (fuel : Nat) (h : Colored n dependencies color stack) (hf : n ≤ fuel + stack.length)
    (hid : id < n) (hw : color id = .white)
    (hc : (stack ++ [id]).IsChain fun a b => b ∈ dependencies a) :
    VisitSpec n dependencies stack color id (visit dependencies fuel id color stack) := by
  have hpush := h.push hid hw
  have hlen := hpush.length_le
  induction fuel generalizing color stack id with
  | zero =>
    rw [List.length_append, List.length_singleton] at hlen
    omega
  | succ fuel ih =>
    have hstep : ∀ color, ∀ d ∈ dependencies id, Colored n dependencies color (stack ++ [id]) →
        VisitSpec n dependencies (stack ++ [id]) color d
          (visitDependency dependencies fuel (stack ++ [id]) color d) := by
      intro color d hd hcolor
      refine visitDependency_spec hself hcolor hc hd fun hwhite => ?_
      have hchain : ((stack ++ [id]) ++ [d]).IsChain fun a b => b ∈ dependencies a := by
        refine hc.append (List.isChain_singleton d) fun a ha b hb => ?_
        rw [List.getLast?_concat] at ha
        simp only [Option.mem_def, Option.some.injEq, List.head?_cons] at ha hb
        subst ha hb
        exact hd
      have hfuel : n ≤ fuel + (stack ++ [id]).length := by
        rw [List.length_append, List.length_singleton]
        omega
      have hpush' := hcolor.push (hlt id d hd) hwhite
      exact ih hcolor hfuel (hlt id d hd) hwhite hchain hpush' hpush'.length_le
    obtain ⟨hok, herr⟩ := foldlM_visit (dependencies id) hstep hpush
    rw [visit_succ]
    cases hv : (dependencies id).foldlM (visitDependency dependencies fuel (stack ++ [id]))
        (Function.update color id .gray) with
    | error path => exact visitSpec_error (herr path hv)
    | ok next =>
      obtain ⟨hfin, hblack⟩ := hok next hv
      refine visitSpec_ok ⟨hfin.colored.pop hblack, fun i hi => ?_⟩ (Function.update_self ..)
      by_cases hie : i = id
      · rw [hie, hw] at hi
        cases hi
      · dsimp only
        rw [Function.update_of_ne hie]
        exact hfin.black i (by rw [Function.update_of_ne hie]; exact hi)

theorem findCycle_spec (hself : ∀ i, i ∉ dependencies i) (hlt : ∀ i, ∀ d ∈ dependencies i, d < n) :
    (∃ rank, TopologicalSort.Ranked n dependencies rank) ∨
      CyclePath dependencies (findCycle n dependencies) := by
  have hstart : Colored n dependencies (fun _ => Color.white) [] := by
    refine ⟨by simp, List.nodup_nil, by simp, [], by simp, ?_⟩
    intro pre i post he
    simp at he
  have hstep : ∀ color, ∀ d ∈ List.range n, Colored n dependencies color [] →
      VisitSpec n dependencies [] color d
        (if color d = Color.white then visit dependencies n d color [] else .ok color) := by
    intro color d hd hcolor
    split
    · rename_i hw
      exact visit_spec hself hlt n hcolor (by simp) (List.mem_range.1 hd) hw
        (List.isChain_singleton d)
    · rename_i hw
      have hng : color d ≠ .gray := fun hg => by simpa using (hcolor.gray d).1 hg
      refine visitSpec_ok ⟨hcolor, fun _ hb => hb⟩ ?_
      cases hcd : color d with
      | white => exact absurd hcd hw
      | gray => exact absurd hcd hng
      | black => rfl
  obtain ⟨hok, herr⟩ := foldlM_visit (List.range n) hstep hstart
  rw [findCycle]
  cases hv : (List.range n).foldlM (fun color i =>
      if color i = Color.white then visit dependencies n i color [] else .ok color)
      (fun _ => Color.white) with
  | error path => exact .inr (herr path hv)
  | ok color =>
    obtain ⟨hfin, hblack⟩ := hok color hv
    obtain ⟨order, horder, hclosed⟩ := hfin.colored.finished
    refine .inl ⟨fun i => order.idxOf i, fun i hi d hd => ?_⟩
    exact hclosed.idxOf_lt ((horder i).2 (hblack i (List.mem_range.2 hi))) hd

theorem checkNames_code (h : checkNames configs names = .error e) : e.code ≠ .cycle := by
  induction configs generalizing names with
  | nil => cases h
  | cons config configs ih =>
    rw [checkNames] at h
    split at h
    · cases h
      decide
    · split at h
      · cases h
        simp
      · exact ih h

theorem resolve_code (h : resolve names name deps seen = .error e) : e.code ≠ .cycle := by
  induction deps generalizing seen with
  | nil => cases h
  | cons d rest ih =>
    rw [resolve] at h
    split at h
    · cases h
      simp
    · split at h
      · cases h
        simp
      · split at h
        · cases h
          simp
        · split at h
          · rename_i hrest
            cases h
            exact ih hrest
          · cases h

theorem resolveAll_code (h : resolveAll names configs = .error e) : e.code ≠ .cycle := by
  induction configs with
  | nil => cases h
  | cons config configs ih =>
    rw [resolveAll] at h
    split at h
    · rename_i hd
      cases h
      exact resolve_code hd
    · split at h
      · rename_i hrest
        cases h
        exact ih hrest
      · cases h

namespace DependencyGraph

variable {graph : DependencyGraph} {configs : List DependencyNodeConfig}

/-- What a call of `build` leaves in its out-parameters; a built graph is moved into the result at
the end only. -/
structure BuildOutcome where
  accepted : Bool
  result : DependencyGraph
  error : Option DependencyError

def buildInto (configs : List DependencyNodeConfig) (result : DependencyGraph) : BuildOutcome :=
  match build configs with
  | .ok graph => ⟨true, graph, none⟩
  | .error e => ⟨false, result, some e⟩

/-- The program `a` lists `b` as a dependency. -/
def DependsOn (configs : List DependencyNodeConfig) (a b : String) : Prop :=
  ∃ c ∈ configs, c.name = a ∧ b ∈ c.dependsOn

def Respects (configs : List DependencyNodeConfig) (order : List Nat) : Prop :=
  ∀ pre i post, order = pre ++ i :: post → ∀ c, configs[i]? = some c → ∀ d ∈ c.dependsOn,
    ∃ j ∈ pre, ∃ c', configs[j]? = some c' ∧ c'.name = d

/-- The resolved lists of a build, before the order is known. -/
structure Resolves (configs : List DependencyNodeConfig) (names : List String)
    (dependencies : Nat → List Nat) : Prop where
  names_eq : names = configs.map (·.name)
  nodup : names.Nodup
  name_ne : ∀ c ∈ configs, c.name ≠ ""
  deps_nodup : ∀ c ∈ configs, c.dependsOn.Nodup
  not_self : ∀ c ∈ configs, c.name ∉ c.dependsOn
  map_deps : ∀ i c, configs[i]? = some c →
    (dependencies i).map (fun id => names.getD id "") = c.dependsOn
  lt : ∀ i, ∀ d ∈ dependencies i, i < configs.length ∧ d < configs.length

theorem resolves_of_resolveAll {names : List String} (hn : checkNames configs [] = .ok names)
    (hd : resolveAll names configs = .ok lists) :
    Resolves configs names fun i => lists.getD i [] := by
  obtain ⟨hnames, hnd, hne⟩ := checkNames_ok hn List.nodup_nil
  rw [List.nil_append] at hnames
  have hall := resolveAll_ok hd
  have hlen := hall.length_eq
  have hres : ∀ i c, configs[i]? = some c →
      resolve names c.name c.dependsOn [] = .ok (lists.getD i []) := by
    intro i c hc
    obtain ⟨hi, rfl⟩ := List.getElem?_eq_some_iff.1 hc
    rw [List.getD_eq_getElem _ _ (by omega)]
    exact hall.get hi (by omega)
  have hmem : ∀ c ∈ configs, ∃ ids, resolve names c.name c.dependsOn [] = .ok ids := by
    intro c hc
    obtain ⟨i, hi⟩ := List.mem_iff_getElem?.1 hc
    exact ⟨_, hres i c hi⟩
  refine ⟨hnames, hnd, hne, fun c hc => ?_, fun c hc hm => ?_, fun i c hc => ?_, fun i d hdi => ?_⟩
  · obtain ⟨ids, hids⟩ := hmem c hc
    exact (resolve_ok hids).2.2.1
  · obtain ⟨ids, hids⟩ := hmem c hc
    exact ((resolve_ok hids).2.2.2 _ hm).2 rfl
  · exact (resolve_ok (hres i c hc)).1
  · have hlt := (resolveAll_getD hd i).2 d hdi
    rw [hnames, List.length_map] at hlt
    refine ⟨?_, hlt⟩
    by_contra hge
    rw [List.getD_eq_default _ _ (by omega)] at hdi
    cases hdi

section Resolved

variable {names : List String} {dependencies : Nat → List Nat}

theorem Resolves.name_of (h : Resolves configs names dependencies) (hc : configs[i]? = some c) :
    names.getD i "" = c.name := by
  simp [h.names_eq, hc]

theorem Resolves.inj (h : Resolves configs names dependencies) (ha : a < configs.length)
    (hb : b < configs.length) (he : names.getD a "" = names.getD b "") : a = b := by
  have hlen : names.length = configs.length := by rw [h.names_eq, List.length_map]
  rw [List.getD_eq_getElem _ _ (by omega), List.getD_eq_getElem _ _ (by omega)] at he
  exact h.nodup.getElem_inj_iff.1 he

theorem Resolves.dependsOn (h : Resolves configs names dependencies) (hd : d ∈ dependencies i) :
    DependsOn configs (names.getD i "") (names.getD d "") := by
  have hc := List.getElem?_eq_getElem (h.lt i d hd).1
  refine ⟨_, List.mem_of_getElem? hc, (h.name_of hc).symm, ?_⟩
  rw [← h.map_deps i _ hc]
  exact List.mem_map_of_mem hd

theorem Resolves.respects_iff (h : Resolves configs names dependencies) :
    Respects configs l ↔ TopologicalSort.Closed dependencies l := by
  constructor
  · intro hr pre i post he d hd
    have hi := (h.lt i d hd).1
    have hc := List.getElem?_eq_getElem hi
    have hname : names.getD d "" ∈ configs[i].dependsOn := by
      rw [← h.map_deps i _ hc]
      exact List.mem_map_of_mem hd
    obtain ⟨j, hj, c', hc', hj'⟩ := hr pre i post he _ hc _ hname
    have hjlt := (List.getElem?_eq_some_iff.1 hc').1
    rw [← h.name_of hc'] at hj'
    exact h.inj hjlt (h.lt i d hd).2 hj' ▸ hj
  · intro hclosed pre i post he c hc d hd
    rw [← h.map_deps i c hc] at hd
    obtain ⟨j, hj, rfl⟩ := List.mem_map.1 hd
    have hcj := List.getElem?_eq_getElem (h.lt i j hj).2
    exact ⟨j, hclosed pre i post he j hj, _, hcj, (h.name_of hcj).symm⟩

theorem forall_of_isChain {R : Nat → Nat → Prop} {P : Nat → Prop} (hR : ∀ a b, R a b → P a ∧ P b)
    (h : (a :: b :: l).IsChain R) : ∀ x ∈ a :: b :: l, P x := by
  induction l generalizing a b with
  | nil =>
    have hab := hR _ _ (List.isChain_cons_cons.1 h).1
    simpa using hab
  | cons c l ih =>
    obtain ⟨hab, hrest⟩ := List.isChain_cons_cons.1 h
    intro x hx
    rcases List.mem_cons.1 hx with rfl | hx
    · exact (hR _ _ hab).1
    · exact ih hrest x hx

theorem transGen_of_isChain {R : String → String → Prop} {l : List String}
    (h : (a :: l ++ [b]).IsChain R) : Relation.TransGen R a b := by
  induction l generalizing a with
  | nil => exact .single (List.isChain_cons_cons.1 h).1
  | cons c l ih =>
    obtain ⟨hac, hrest⟩ := List.isChain_cons_cons.1 h
    exact .head hac (ih hrest)

theorem Resolves.cycle (h : Resolves configs names dependencies)
    (hp : CyclePath dependencies path) :
    ∃ d mid, path.map (fun id => names.getD id "") = d :: mid ++ [d] ∧ mid ≠ [] ∧
      (d :: mid).Nodup ∧ (d :: mid ++ [d]).IsChain (DependsOn configs) := by
  obtain ⟨d, mid, rfl, hmid, hnd, hchain⟩ := hp
  obtain ⟨m, rest, rfl⟩ := List.exists_cons_of_ne_nil hmid
  have hlt : ∀ x ∈ d :: m :: (rest ++ [d]), x < configs.length :=
    forall_of_isChain (fun a b hb => h.lt a b hb) hchain
  have hnames := List.isChain_map_of_isChain (fun id => names.getD id "")
    (fun a b hb => h.dependsOn hb) hchain
  refine ⟨names.getD d "", (m :: rest).map fun id => names.getD id "", by simp, by simp, ?_, ?_⟩
  · have hmapped : names.getD d "" :: (m :: rest).map (fun id => names.getD id "") =
        (d :: m :: rest).map fun id => names.getD id "" := rfl
    rw [hmapped]
    refine hnd.map_on fun a ha b hb he => h.inj (hlt a ?_) (hlt b ?_) he
    · exact List.mem_append_left [d] ha
    · exact List.mem_append_left [d] hb
  · simpa using hnames

end Resolved

theorem resolves_of_build (h : build configs = .ok graph) :
    Resolves configs graph.names graph.dependencies := by
  obtain ⟨lists, hn, hd, hdeps⟩ := build_eq_ok h
  rw [hdeps]
  exact resolves_of_resolveAll hn hd

theorem order_perm (h : build configs = .ok graph) :
    graph.topologicalOrder.Perm (List.range configs.length) := by
  apply (List.perm_ext_iff_of_nodup graph.order_nodup List.nodup_range).2
  intro i
  rw [mem_order, List.mem_range, size, build_names h, List.length_map]

theorem order_least (h : build configs = .ok graph) {l : List Nat}
    (hl : l.Perm (List.range configs.length)) (hr : Respects configs l) :
    graph.topologicalOrder = l ∨ List.Lex (· < ·) graph.topologicalOrder l := by
  have hsize : graph.size = configs.length := by rw [size, build_names h, List.length_map]
  rw [← hsize] at hl
  have hclosed := (resolves_of_build h).respects_iff.1 hr
  rw [graph.order_eq]
  exact TopologicalSort.sort_least graph.transpose hl hclosed

theorem order_respects (h : build configs = .ok graph) :
    Respects configs graph.topologicalOrder :=
  (resolves_of_build h).respects_iff.2 graph.order_closed

theorem acyclic_of_build (h : build configs = .ok graph) (n : String) :
    ¬Relation.TransGen (DependsOn configs) n n := by
  obtain ⟨rank, hrank⟩ := (valid_of_build h).acyclic
  have hlt : ∀ a b, Relation.TransGen (DependsOn configs) a b → rank b < rank a := by
    intro a b hab
    induction hab with
    | single hab =>
      obtain ⟨c, hc, rfl, hd⟩ := hab
      exact hrank c hc _ hd
    | tail _ hbc ih =>
      obtain ⟨c, hc, rfl, hd⟩ := hbc
      exact (hrank c hc _ hd).trans ih
  intro hn
  exact Nat.lt_irrefl _ (hlt n n hn)

theorem Resolves.not_self_id {names : List String} {dependencies : Nat → List Nat}
    (h : Resolves configs names dependencies) (i : Nat) : i ∉ dependencies i := by
  intro hi
  obtain ⟨c, hc, hname, hm⟩ := h.dependsOn hi
  exact h.not_self c hc (hname ▸ hm)

theorem Resolves.ranked_or_cycle {names : List String} {dependencies : Nat → List Nat}
    (h : Resolves configs names dependencies) :
    (∃ rank, TopologicalSort.Ranked names.length dependencies rank) ∨
      CyclePath dependencies (findCycle names.length dependencies) := by
  refine findCycle_spec h.not_self_id fun i d hd => ?_
  rw [h.names_eq, List.length_map]
  exact (h.lt i d hd).2

theorem valid_of_ranked {names : List String} {dependencies : Nat → List Nat}
    (h : Resolves configs names dependencies)
    (hr : TopologicalSort.Ranked names.length dependencies rank) : Valid configs := by
  have hlen : names.length = configs.length := by rw [h.names_eq, List.length_map]
  have hdep : ∀ i c, configs[i]? = some c → ∀ d ∈ c.dependsOn,
      ∃ j ∈ dependencies i, names.getD j "" = d := by
    intro i c hc d hd
    rw [← h.map_deps i c hc] at hd
    exact List.mem_map.1 hd
  have hname : ∀ j < configs.length, names.idxOf (names.getD j "") = j := by
    intro j hj
    rw [List.getD_eq_getElem _ _ (by omega)]
    exact h.nodup.idxOf_getElem j (by omega)
  refine ⟨h.name_ne, h.names_eq ▸ h.nodup, h.deps_nodup, h.not_self, fun c hc d hd => ?_,
    fun s => rank (names.idxOf s), fun c hc d hd => ?_⟩
  · obtain ⟨i, hi⟩ := List.mem_iff_getElem?.1 hc
    obtain ⟨j, hj, rfl⟩ := hdep i c hi d hd
    rw [← h.names_eq, List.getD_eq_getElem _ _ (by have := (h.lt i j hj).2; omega)]
    exact List.getElem_mem _
  · obtain ⟨i, hi⟩ := List.mem_iff_getElem?.1 hc
    obtain ⟨j, hj, rfl⟩ := hdep i c hi d hd
    obtain ⟨hilt, hjlt⟩ := h.lt i j hj
    dsimp only
    rw [← h.name_of hi, hname i hilt, hname j hjlt]
    exact hr i (by omega) j hj

structure Acceptable (configs : List DependencyNodeConfig) : Prop where
  name_ne : ∀ c ∈ configs, c.name ≠ ""
  names_nodup : (configs.map (·.name)).Nodup
  deps_nodup : ∀ c ∈ configs, c.dependsOn.Nodup
  not_self : ∀ c ∈ configs, c.name ∉ c.dependsOn
  registered : ∀ c ∈ configs, ∀ d ∈ c.dependsOn, d ∈ configs.map (·.name)
  acyclic : ∀ n, ¬Relation.TransGen (DependsOn configs) n n

theorem build_iff : (∃ graph, build configs = .ok graph) ↔ Acceptable configs := by
  constructor
  · rintro ⟨graph, h⟩
    have hv := valid_of_build h
    exact ⟨hv.name_ne, hv.names_nodup, hv.deps_nodup, hv.not_self, hv.registered,
      acyclic_of_build h⟩
  · intro h
    have hn : checkNames configs [] = .ok (configs.map (·.name)) :=
      checkNames_of_valid h.name_ne (by simpa using h.names_nodup)
    obtain ⟨lists, hd⟩ := resolveAll_of_valid fun c hc =>
      resolve_of_valid (h.not_self c hc) (h.registered c hc) (by simpa using h.deps_nodup c hc)
    have hres := resolves_of_resolveAll hn hd
    rcases hres.ranked_or_cycle with ⟨rank, hr⟩ | hcycle
    · exact build_isOk (valid_of_ranked hres hr)
    · obtain ⟨d, mid, -, -, -, hchain⟩ := hres.cycle hcycle
      exact absurd (transGen_of_isChain hchain) (h.acyclic d)

theorem build_cycle (h : build configs = .error e) (hcode : e.code = .cycle) :
    ∃ d mid, e.cyclePath = d :: mid ++ [d] ∧ mid ≠ [] ∧ (d :: mid).Nodup ∧
      (d :: mid ++ [d]).IsChain (DependsOn configs) := by
  unfold build at h
  split at h
  · rename_i he
    cases h
    exact absurd hcode (checkNames_code he)
  · split at h
    · rename_i he
      cases h
      exact absurd hcode (resolveAll_code he)
    · rename_i names hn lists hd
      dsimp only at h
      split at h
      · cases h
      · rename_i ho
        cases h
        have hres := resolves_of_resolveAll hn hd
        have ht : TopologicalSort.Transpose names.length (fun i => lists.getD i [])
            (dependentsOf (fun i => lists.getD i []) names.length) :=
          ⟨fun i => (resolveAll_getD hd i).1, fun i _ => (resolveAll_getD hd i).2,
            fun _ => List.nodup_range.filter _, by simp [dependentsOf]⟩
        rcases hres.ranked_or_cycle with hr | hcycle
        · exact absurd ((TopologicalSort.length_sort_iff ht).2 hr) ho
        · exact hres.cycle hcycle

/-- `build` accepts what is acceptable, orders it stably, and reports a cycle when it finds one. -/
theorem buildInto_correct (configs : List DependencyNodeConfig) (result : DependencyGraph) :
    let outcome := buildInto configs result
    (outcome.accepted = true ↔ Acceptable configs) ∧
      (outcome.accepted = true →
        let order := outcome.result.topologicalOrder
        order.Perm (List.range configs.length) ∧ Respects configs order ∧
          ∀ l, l.Perm (List.range configs.length) → Respects configs l →
            order = l ∨ List.Lex (· < ·) order l) ∧
      (outcome.accepted = false → outcome.result = result) ∧
      ∀ e, outcome.error = some e → e.code = .cycle →
        3 ≤ e.cyclePath.length ∧ e.cyclePath.head? = e.cyclePath.getLast? ∧
          e.cyclePath.dropLast.Nodup ∧ e.cyclePath.IsChain (DependsOn configs) := by
  intro outcome
  rw [← build_iff]
  cases h : build configs with
  | ok graph =>
    have houtcome : outcome = ⟨true, graph, none⟩ := by simp [outcome, buildInto, h]
    rw [houtcome]
    refine ⟨by simp, fun _ => ⟨order_perm h, order_respects h, fun l hl hr => order_least h hl hr⟩,
      by simp, by simp⟩
  | error e =>
    have houtcome : outcome = ⟨false, result, some e⟩ := by simp [outcome, buildInto, h]
    rw [houtcome]
    refine ⟨by simp, by simp, fun _ => rfl, fun e' he hcode => ?_⟩
    cases he
    obtain ⟨d, mid, hpath, hmid, hnd, hchain⟩ := build_cycle h hcode
    have hpos := List.length_pos_iff.2 hmid
    have hlast : (d :: mid ++ [d]).getLast? = some d := List.getLast?_concat ..
    have hinit : (d :: mid ++ [d]).dropLast = d :: mid := List.dropLast_concat
    rw [hpath, hlast, hinit]
    refine ⟨?_, rfl, hnd, hchain⟩
    simp only [List.cons_append, List.length_cons, List.length_append, List.length_nil]
    omega

end DependencyGraph
end PmTiny
