import Mathlib.Data.List.Basic
import ModuleGraph.Proofs.ExportGraph

/-!
# Export resolution is reachability

`ModuleMap.resolveExport_iff` is the main statement: a name of a module stands for a target if and
only if this is the only target to which the name leads in the graph of re-exports, it is ambiguous
if there are several, and stands for nothing if there is none.

The branches of a search share the nodes that have been met, so that one branch may be cut short by
another one. No target is lost in this way: all nodes that have been met since a search began lead
to nodes that have been met, and all leaves among them have the target that has been found
(`Explored`).
-/

namespace ModuleGraph

variable {map map' : ModuleMap} {key target : ModuleKey} {name imported first : String}
  {visited visited' base : Visited} {node other : ExportNode} {n m : Nat}
  {found found' : Option ExportTarget}

/-! ## The bound of a search -/

/-- A node that is no dead end leaves less room to the rest of the search. -/
theorem ModuleMap.room_lt (hname : name = first ∨ name ∈ map.importedNames)
    (hnew : (key, name) ∉ visited) (hstep : map.exportStep (key, name) ≠ .stop) :
    map.room first ((key, name) :: visited) < map.room first visited := by
  refine room_cons_lt (mem_exportNodes hname ?_) hnew
  cases hview : map.linkView? key with
  | none => simp [exportStep, hview] at hstep
  | some view => rfl

/-- Answers that are asked for alike are joined alike, as long as an invariant of what is visited
holds. -/
theorem joinAnswers_congr {ask ask' : ModuleKey → Visited → ExportAnswer × Visited}
    (invariant : Visited → Prop)
    (hask : ∀ key visited, invariant visited →
      ask key visited = ask' key visited ∧ invariant (ask' key visited).2)
    (modules : List ModuleKey) (found : Option ExportTarget) (h : invariant visited) :
    joinAnswers ask modules found visited = joinAnswers ask' modules found visited := by
  induction modules generalizing found visited with
  | nil => cases found <;> rfl
  | cons key modules ih =>
      obtain ⟨hsame, hkey⟩ := hask key visited h
      unfold joinAnswers
      rw [hsame]
      cases hanswer : ask' key visited with
      | mk answer visited' =>
          rw [hanswer] at hkey
          cases answer with
          | error fault => cases fault <;> simp [ih _ hkey]
          | ok target => cases found <;> simp [ih _ hkey]

/-- A search that has room enough does not depend on its bound. -/
theorem ModuleMap.followExport_eq (hname : name = first ∨ name ∈ map.importedNames)
    (hroom : map.room first visited < n) (hle : n ≤ m) :
    map.followExport m key name visited = map.followExport n key name visited := by
  induction n generalizing m key name visited with
  | zero => exact absurd hroom (Nat.not_lt_zero _)
  | succ n ih =>
      obtain ⟨m, rfl⟩ := Nat.exists_eq_add_of_le' hle
      rw [← Nat.add_assoc, followExport_succ, followExport_succ]
      split
      · rfl
      next hnew =>
      cases hstep : map.exportStep (key, name) with
      | stop => rfl
      | leaf target => rfl
      | rename target imported =>
          have hless := room_lt hname hnew (by simp [hstep])
          exact ih (.inr (mem_importedNames hstep)) (by omega) (by omega)
      | stars modules =>
          have hless := room_lt hname hnew (by simp [hstep])
          refine joinAnswers_congr (map.room first · < n) (fun k v hv => ⟨?_, ?_⟩) modules none
            (by omega)
          · exact ih hname hv (by omega)
          · exact Nat.lt_of_le_of_lt (room_le_room (map.subset_followExport n k name v)) hv

/-! ## What a search finds -/

/-- Since the nodes `base` had been met, all nodes met lead to nodes that have been met, and all
leaves among them have the target that has been found. -/
def Explored (map : ModuleMap) (base visited : Visited) (found : Option ExportTarget) : Prop :=
  ∀ node ∈ visited, node ∉ base → map.exportEdges node ⊆ visited ∧
    ∀ t, map.exportLeaf? node = some t → found = some t

/-- What the answer to a node says that a search has given by way of some nodes. -/
structure Explains (map : ModuleMap) (node : ExportNode) (nodes : List ExportNode) (base : Visited)
    (answer : ExportAnswer) (visited : Visited) : Prop where
  met : answer ≠ .error .ambiguous → nodes ⊆ visited
  offered : ∀ t, answer = .ok t → map.Offers node t
  ambiguous : answer = .error .ambiguous → ∃ t t', t ≠ t' ∧ map.Offers node t ∧ map.Offers node t'
  explored : answer ≠ .error .ambiguous → Explored map base visited answer.toOption

/-- A search that has met nothing more has explored what it has met. -/
theorem Explored.refl : Explored map base base found :=
  fun _ hnode hold => absurd hnode hold

/-- The node itself is explored, too, once its edges lead to nodes that have been met. -/
theorem Explored.of_cons (h : Explored map (node :: base) visited found)
    (hedges : map.exportEdges node ⊆ visited)
    (hleaf : ∀ t, map.exportLeaf? node = some t → found = some t) :
    Explored map base visited found := by
  intro other hother hold
  by_cases hsame : other = node
  · subst hsame
    exact ⟨hedges, hleaf⟩
  · exact h other hother (by simp [hsame, hold])

/-- One branch follows another one. -/
theorem Explored.trans (h : Explored map base visited found)
    (h' : Explored map visited visited' found') {joined : Option ExportTarget}
    (hsub : visited ⊆ visited') (hfound : ∀ t, found = some t → joined = some t)
    (hfound' : ∀ t, found' = some t → joined = some t) : Explored map base visited' joined := by
  intro node hnode hnew
  by_cases hold : node ∈ visited
  · obtain ⟨hedges, hleaf⟩ := h node hold hnew
    exact ⟨List.Subset.trans hedges hsub, fun t ht => hfound t (hleaf t ht)⟩
  · obtain ⟨hedges, hleaf⟩ := h' node hnode hold
    exact ⟨hedges, fun t ht => hfound' t (hleaf t ht)⟩

/-- What an edge leads to is offered by the node as well. -/
theorem Explains.of_edge {nodes : List ExportNode} {answer : ExportAnswer}
    (h : Explains map other nodes base answer visited) (hedge : other ∈ map.exportEdges node) :
    Explains map node nodes base answer visited where
  met := h.met
  offered t ht := (h.offered t ht).of_edge hedge
  ambiguous hends := by
    obtain ⟨t, t', hne, ht, ht'⟩ := h.ambiguous hends
    exact ⟨t, t', hne, ht.of_edge hedge, ht'.of_edge hedge⟩
  explored := h.explored

/-- A node that offers two targets is ambiguous, whatever has been met. -/
theorem Explains.ambiguity {nodes : List ExportNode} {t t' : ExportTarget} (hne : t ≠ t')
    (ht : map.Offers node t) (ht' : map.Offers node t') :
    Explains map node nodes base (.error .ambiguous) visited :=
  ⟨fun hends => absurd rfl hends, by simp, fun _ => ⟨t, t', hne, ht, ht'⟩,
    fun hends => absurd rfl hends⟩

/-- An answer is explained by one node more, if this has been met. -/
theorem Explains.cons {nodes : List ExportNode} {answer : ExportAnswer}
    (h : Explains map node nodes base answer visited) (hmet : other ∈ visited) :
    Explains map node (other :: nodes) base answer visited :=
  { h with met := fun hends => List.cons_subset.2 ⟨hmet, h.met hends⟩ }

/-- The edges of a node answer for the node, too, unless it is a leaf. -/
theorem Explains.of_edges {answer : ExportAnswer}
    (h : Explains map node (map.exportEdges node) (node :: base) answer visited)
    (hmet : node ∈ visited) (hleaf : map.exportLeaf? node = none) :
    Explains map node [node] base answer visited where
  met _ := by simpa using hmet
  offered := h.offered
  ambiguous := h.ambiguous
  explored hends := (h.explored hends).of_cons (h.met hends) (by simp [hleaf])

/-- The branches of a node, one after the other. -/
theorem explains_joinAnswers {ask : ModuleKey → Visited → ExportAnswer × Visited}
    (invariant : Visited → Prop) (hsubset : ∀ key visited, visited ⊆ (ask key visited).2)
    (hask : ∀ key visited, invariant visited → invariant (ask key visited).2 ∧
      Explains map (key, name) [(key, name)] visited (ask key visited).1 (ask key visited).2)
    (modules : List ModuleKey) (hmodules : ∀ key ∈ modules, (key, name) ∈ map.exportEdges node)
    (h : invariant visited) (hfound : ∀ t, found = some t → map.Offers node t)
    (hexplored : Explored map base visited found) :
    Explains map node (modules.map (·, name)) base (joinAnswers ask modules found visited).1
      (joinAnswers ask modules found visited).2 := by
  induction modules generalizing found visited with
  | nil =>
      cases found with
      | none => exact ⟨by simp, by simp [joinAnswers], by simp [joinAnswers], fun _ => hexplored⟩
      | some t =>
          refine ⟨by simp, fun t' ht' => ?_, by simp [joinAnswers], fun _ => hexplored⟩
          cases ht'
          exact hfound t rfl
  | cons key modules ih =>
      obtain ⟨hinvariant, hkey⟩ := hask key visited h
      have hbranch := hkey.of_edge (hmodules key List.mem_cons_self)
      have hsub := hsubset key visited
      -- a branch that is not ambiguous leaves the rest to the other branches
      have hnext : ∀ {answer : ExportAnswer} {visited' : Visited} {joined : Option ExportTarget},
          ask key visited = (answer, visited') → answer ≠ .error .ambiguous →
          (∀ t, found = some t → joined = some t) →
          (∀ t, answer.toOption = some t → joined = some t) →
          (∀ t, joined = some t → map.Offers node t) →
          Explains map node ((key :: modules).map (·, name)) base
            (joinAnswers ask modules joined visited').1
            (joinAnswers ask modules joined visited').2 := by
        intro answer visited' joined hanswer hunambiguous hleft hright hoffered
        rw [hanswer] at hinvariant hbranch hsub
        have hrest := ih (fun k hk => hmodules k (List.mem_cons_of_mem key hk)) hinvariant hoffered
          (hexplored.trans (hbranch.explored hunambiguous) hsub hleft hright)
        have hmet := hbranch.met hunambiguous List.mem_cons_self
        exact hrest.cons (ModuleMap.subset_joinAnswers hsubset modules joined visited' hmet)
      unfold joinAnswers
      split
      · next visited' hanswer =>
          rw [hanswer] at hbranch
          obtain ⟨t, t', hne, ht, ht'⟩ := hbranch.ambiguous rfl
          exact .ambiguity hne ht ht'
      · next fault visited' hunambiguous hanswer =>
          refine hnext hanswer (fun hfault => ?_) (fun _ ht => ht) (by simp [Except.toOption])
            hfound
          exact hunambiguous (by simpa using hfault)
      · next t visited' hanswer =>
          have hoffers : map.Offers node t := by
            rw [hanswer] at hbranch
            exact hbranch.offered t rfl
          cases found with
          | none =>
              refine hnext hanswer (by simp) (by simp) (by simp [Except.toOption]) fun t' ht' => ?_
              exact Option.some.inj ht' ▸ hoffers
          | some earlier =>
              simp only
              split
              · next hsame =>
                  refine hnext hanswer (by simp) (fun _ ht => ht) (fun t' ht' => ?_) hfound
                  rw [hsame]
                  exact ht'
              · next hdiffer => exact .ambiguity hdiffer (hfound earlier rfl) hoffers

/-- A search that has room enough explains its answer. -/
theorem ModuleMap.explains_followExport (hname : name = first ∨ name ∈ map.importedNames)
    (hroom : map.room first visited < n) :
    Explains map (key, name) [(key, name)] visited (map.followExport n key name visited).1
      (map.followExport n key name visited).2 := by
  induction n generalizing key name visited with
  | zero => exact absurd hroom (Nat.not_lt_zero _)
  | succ n ih =>
      rw [followExport_succ]
      split
      · next hmet =>
          -- another branch has met the node, and answers for it
          exact ⟨fun _ => by simpa using hmet, by simp, by simp, fun _ => .refl⟩
      next hnew =>
      cases hstep : map.exportStep (key, name) with
      | stop =>
          refine ⟨by simp, by simp, by simp, fun _ => .of_cons .refl ?_ ?_⟩
          · simp [exportEdges, hstep]
          · simp [exportLeaf?, hstep]
      | leaf target =>
          have hleaf : map.exportLeaf? (key, name) = some target := by simp [exportLeaf?, hstep]
          refine ⟨by simp, fun t ht => ?_, by simp, fun _ => .of_cons .refl ?_ ?_⟩
          · cases ht
            exact ⟨_, .refl, hleaf⟩
          · simp [exportEdges, hstep]
          · intro t ht
            rw [hleaf] at ht
            exact ht
      | rename target imported =>
          have hless := room_lt hname hnew (by simp [hstep])
          have hedges : map.exportEdges (key, name) = [(target, imported)] := by
            simp [exportEdges, hstep]
          have hsub := map.subset_followExport n target imported ((key, name) :: visited)
          have hfollow : Explains map (target, imported) [(target, imported)] _ _ _ :=
            ih (.inr (mem_importedNames hstep))
              (Nat.lt_of_lt_of_le hless (Nat.le_of_lt_succ hroom))
          have hedge : Explains map (key, name) [(target, imported)] _ _ _ :=
            hfollow.of_edge (by simp [hedges])
          rw [← hedges] at hedge
          exact hedge.of_edges (hsub List.mem_cons_self) (by simp [exportLeaf?, hstep])
      | stars modules =>
          have hless := room_lt hname hnew (by simp [hstep])
          have hedges : map.exportEdges (key, name) = modules.map (·, name) := by
            simp [exportEdges, hstep]
          have hsubset := fun k => map.subset_followExport n k name
          have hsub := subset_joinAnswers hsubset modules none ((key, name) :: visited)
          have hstart : Explored map ((key, name) :: visited) ((key, name) :: visited) none := .refl
          have hjoin : Explains map (key, name) _ _ _ _ :=
            explains_joinAnswers (map.room first · < n) hsubset
              (fun k v hv => ⟨Nat.lt_of_le_of_lt (room_le_room (hsubset k v)) hv, ih hname hv⟩)
              modules (fun k hk => hedges ▸ List.mem_map.2 ⟨k, hk, rfl⟩)
              (Nat.lt_of_lt_of_le hless (Nat.le_of_lt_succ hroom)) (by simp) hstart
          rw [← hedges] at hjoin
          exact hjoin.of_edges (hsub List.mem_cons_self) (by simp [exportLeaf?, hstep])

/-- A search that began with no nodes met has met all that its node leads to. -/
theorem Explains.mem_of_leads {answer : ExportAnswer}
    (h : Explains map node [node] [] answer visited) (hends : answer ≠ .error .ambiguous)
    (hleads : map.Leads node other) : other ∈ visited := by
  induction hleads with
  | refl => exact h.met hends List.mem_cons_self
  | tail _ hedge ih => exact (h.explored hends _ ih (by simp)).1 hedge

/-- The answer to an export name is explained by a search that begins with nothing met. -/
theorem ModuleMap.explains_resolveExport (map : ModuleMap) (key : ModuleKey) (name : String) :
    ∃ visited, Explains map (key, name) [(key, name)] [] (map.resolveExport key name) visited :=
  ⟨_, explains_followExport (.inl rfl) (Nat.lt_succ_of_le (map.room_le_exportBound name []))⟩

/-- An answer that is not ambiguous is the target of each leaf that the node leads to. -/
theorem ModuleMap.resolveExport_eq_of_offers {t : ExportTarget}
    (h : map.resolveExport key name ≠ .error .ambiguous) (hoffers : map.Offers (key, name) t) :
    map.resolveExport key name = .ok t := by
  obtain ⟨visited, hexplains⟩ := map.explains_resolveExport key name
  obtain ⟨leaf, hleads, hleaf⟩ := hoffers
  have hfound := (hexplains.explored h leaf (hexplains.mem_of_leads h hleads) (by simp)).2 t hleaf
  cases hanswer : map.resolveExport key name with
  | ok target => simpa [hanswer, Except.toOption] using hfound
  | error fault => simp [hanswer, Except.toOption] at hfound

/-! ## Names that lead in a circle -/

namespace ModuleMap

/-- A node leads to another by a renaming. -/
def Renames (map : ModuleMap) (node other : ExportNode) : Prop :=
  map.exportStep node = .rename other.1 other.2

/-- The renamings of a node never come to an end. -/
def Endless (map : ModuleMap) (node : ExportNode) : Prop :=
  ∀ last, Relation.ReflTransGen map.Renames node last → ∃ next, map.Renames last next

/-- A node is renamed to one node only. -/
theorem Renames.unique {next : ExportNode} (h : map.Renames node other)
    (h' : map.Renames node next) : other = next := by
  have hsame := h.symm.trans h'
  simp only [ExportStep.rename.injEq] at hsame
  exact Prod.ext hsame.1 hsame.2

/-- A node that leads back to itself by renamings is endless. -/
theorem endless_of_transGen (h : Relation.TransGen map.Renames node node) : map.Endless node := by
  intro last hlast
  have hcycle : Relation.TransGen map.Renames last last := by
    induction hlast with
    | refl => exact h
    | tail _ hnext ih =>
        obtain ⟨next, hfirst, hrest⟩ := Relation.TransGen.head'_iff.1 ih
        obtain rfl := hnext.unique hfirst
        exact .tail' hrest hnext
  obtain ⟨next, hnext, -⟩ := Relation.TransGen.head'_iff.1 hcycle
  exact ⟨next, hnext⟩

/-- A node that is renamed to an endless one is endless. -/
theorem Endless.of_renames (hnext : map.Renames node other) (h : map.Endless other) :
    map.Endless node := by
  intro last hlast
  rcases Relation.ReflTransGen.cases_head hlast with rfl | ⟨next, hfirst, hrest⟩
  · exact ⟨other, hnext⟩
  · obtain rfl := hnext.unique hfirst
    exact h last hrest

/-- The answer through `export *` is never circular: branches that lead nowhere offer nothing. -/
theorem joinAnswers_ne_circular {ask : ModuleKey → Visited → ExportAnswer × Visited}
    (modules : List ModuleKey) (found : Option ExportTarget) (visited : Visited) :
    (joinAnswers ask modules found visited).1 ≠ .error .circular := by
  induction modules generalizing found visited with
  | nil => cases found <;> simp [joinAnswers]
  | cons key modules ih =>
      unfold joinAnswers
      split
      · simp
      · exact ih _ _
      · split
        · exact ih _ _
        · split
          · exact ih _ _
          · simp

/-- The search for an endless name is circular, whatever has been met before. -/
theorem followExport_of_endless (n : Nat) (visited : Visited) (h : map.Endless (key, name)) :
    (map.followExport n key name visited).1 = .error .circular := by
  induction n generalizing key name visited with
  | zero => rfl
  | succ n ih =>
      rw [followExport_succ]
      split
      · rfl
      · obtain ⟨next, hnext⟩ := h _ .refl
        have hstep : map.exportStep (key, name) = .rename next.1 next.2 := hnext
        rw [hstep]
        exact ih _ fun last hlast => h last (.head hnext hlast)

/-- A search that is circular, after nothing but renamings, is that for an endless name. -/
theorem endless_of_followExport (hname : name = first ∨ name ∈ map.importedNames)
    (hroom : map.room first visited < n)
    (hvisited : ∀ node ∈ visited, Relation.TransGen map.Renames node (key, name))
    (h : (map.followExport n key name visited).1 = .error .circular) : map.Endless (key, name) := by
  induction n generalizing key name visited with
  | zero => exact absurd hroom (Nat.not_lt_zero _)
  | succ n ih =>
      rw [followExport_succ] at h
      split at h
      · next hmet => exact endless_of_transGen (hvisited _ hmet)
      next hnew =>
      cases hstep : map.exportStep (key, name) with
      | stop => simp [hstep] at h
      | leaf target => simp [hstep] at h
      | rename target imported =>
          have hnext : map.Renames (key, name) (target, imported) := hstep
          have hless := room_lt hname hnew (by simp [hstep])
          rw [hstep] at h
          refine .of_renames hnext (ih (.inr (mem_importedNames hstep)) (by omega) ?_ h)
          intro node hnode
          rcases List.mem_cons.1 hnode with rfl | hnode
          · exact .single hnext
          · exact (hvisited node hnode).tail hnext
      | stars modules =>
          rw [hstep] at h
          exact absurd h (joinAnswers_ne_circular modules none _)

/-- A name is circular just if its renamings never come to an end. -/
theorem resolveExport_eq_circular_iff :
    map.resolveExport key name = .error .circular ↔ map.Endless (key, name) :=
  ⟨endless_of_followExport (.inl rfl) (Nat.lt_succ_of_le (map.room_le_exportBound name []))
    (by simp), followExport_of_endless _ _⟩

end ModuleMap

/-! ## The order of `export *` -/

/-- Two views of a module that differ in the order of its `export *` only. -/
structure LinkView.Reorders (v v' : LinkView) : Prop where
  localExports : v'.body.localExports = v.body.localExports
  indirectExports : v'.body.indirectExports = v.body.indirectExports
  starExports : v'.body.starExports.Perm v.body.starExports
  dependency? : ∀ request, v'.dependency? request = v.dependency? request

/-- Two maps whose modules differ in the order of their `export *` only. -/
def ModuleMap.Reorders (map map' : ModuleMap) : Prop :=
  ∀ key, Option.Rel LinkView.Reorders (map.linkView? key) (map'.linkView? key)

namespace ModuleMap.Reorders

/-- A node is what it was, or its branches have been reordered. -/
theorem exportStep (h : map.Reorders map') (node : ExportNode) :
    map'.exportStep node = map.exportStep node ∨ ∃ modules modules',
      map.exportStep node = .stars modules ∧ map'.exportStep node = .stars modules' ∧
        modules'.Perm modules := by
  have hkey := h node.1
  unfold ModuleMap.exportStep
  generalize map.linkView? node.1 = view, map'.linkView? node.1 = view' at hkey ⊢
  cases hkey with
  | none => exact .inl rfl
  | @some v v' hview =>
      have hlocal : v'.localExport? node.2 = v.localExport? node.2 := by
        rw [LinkView.localExport?, hview.localExports, LinkView.localExport?]
      have hindirect : v'.indirectExport? node.2 = v.indirectExport? node.2 := by
        rw [LinkView.indirectExport?, hview.indirectExports, LinkView.indirectExport?]
      have hstars : v'.starDependencies.Perm v.starDependencies := by
        unfold LinkView.starDependencies
        rw [funext hview.dependency?]
        exact hview.starExports.filterMap _
      simp only [LinkView.exportStep, hlocal, hindirect, hview.dependency?]
      cases v.localExport? node.2 with
      | some e => exact .inl rfl
      | none =>
          cases v.indirectExport? node.2 with
          | some e => exact .inl rfl
          | none =>
              simp only
              split
              · exact .inl rfl
              · exact .inr ⟨_, _, rfl, rfl, hstars⟩

/-- The order of `export *` does not change where a node leads. -/
theorem mem_exportEdges (h : map.Reorders map') :
    other ∈ map'.exportEdges node ↔ other ∈ map.exportEdges node := by
  rcases h.exportStep node with hsame | ⟨modules, modules', hstep, hstep', hperm⟩
  · rw [ModuleMap.exportEdges, hsame, ModuleMap.exportEdges]
  · simp [ModuleMap.exportEdges, hstep, hstep', hperm.mem_iff]

/-- The order of `export *` does not change the target of a leaf. -/
theorem exportLeaf? (h : map.Reorders map') (node : ExportNode) :
    map'.exportLeaf? node = map.exportLeaf? node := by
  rcases h.exportStep node with hsame | ⟨modules, modules', hstep, hstep', -⟩
  · rw [ModuleMap.exportLeaf?, hsame, ModuleMap.exportLeaf?]
  · simp [ModuleMap.exportLeaf?, hstep, hstep']

/-- The order of `export *` does not change the targets of a node. -/
theorem offers (h : map.Reorders map') (node : ExportNode) (t : ExportTarget) :
    map'.Offers node t ↔ map.Offers node t := by
  have hleads : map'.Leads = map.Leads := by
    unfold ModuleMap.Leads
    congr
    funext node other
    exact propext h.mem_exportEdges
  simp only [ModuleMap.Offers, hleads, h.exportLeaf?]

/-- The order of `export *` does not change which nodes are endless. -/
theorem endless (h : map.Reorders map') (node : ExportNode) :
    map'.Endless node ↔ map.Endless node := by
  have hrenames : map'.Renames = map.Renames := by
    funext node other
    unfold ModuleMap.Renames
    rcases h.exportStep node with hsame | ⟨modules, modules', hstep, hstep', -⟩
    · rw [hsame]
    · simp [hstep, hstep']
  rw [ModuleMap.Endless, hrenames, ModuleMap.Endless]

end ModuleMap.Reorders

/-! ## What a name stands for -/

namespace ModuleMap

/-- A name stands for a target just if it leads to this target and no other one. -/
theorem resolveExport_eq_ok_iff {t : ExportTarget} :
    map.resolveExport key name = .ok t ↔ ∀ t', map.Offers (key, name) t' ↔ t' = t := by
  obtain ⟨visited, hexplains⟩ := map.explains_resolveExport key name
  constructor
  · intro hok t'
    constructor
    · intro hoffers
      have hunambiguous : map.resolveExport key name ≠ .error .ambiguous := by simp [hok]
      have hok' := resolveExport_eq_of_offers hunambiguous hoffers
      rw [hok] at hok'
      exact (Except.ok.inj hok').symm
    · rintro rfl
      exact hexplains.offered t' hok
  · intro hall
    refine resolveExport_eq_of_offers (fun hambiguous => ?_) ((hall t).2 rfl)
    obtain ⟨a, b, hne, ha, hb⟩ := hexplains.ambiguous hambiguous
    exact hne (((hall a).1 ha).trans ((hall b).1 hb).symm)

/-- A name is ambiguous just if it leads to two targets. -/
theorem resolveExport_eq_ambiguous_iff :
    map.resolveExport key name = .error .ambiguous ↔
      ∃ t t', t ≠ t' ∧ map.Offers (key, name) t ∧ map.Offers (key, name) t' := by
  obtain ⟨visited, hexplains⟩ := map.explains_resolveExport key name
  constructor
  · exact hexplains.ambiguous
  · rintro ⟨t, t', hne, ht, ht'⟩
    by_contra hunambiguous
    have hok := resolveExport_eq_of_offers hunambiguous ht
    rw [resolveExport_eq_of_offers hunambiguous ht'] at hok
    exact hne (Except.ok.inj hok).symm

/-- A name stands for nothing just if it leads to no target. -/
theorem resolveExport_eq_nothing_iff :
    map.resolveExport key name = .error .missing ∨ map.resolveExport key name = .error .circular ↔
      ∀ t, ¬ map.Offers (key, name) t := by
  constructor
  · intro hnothing t hoffers
    have hok := resolveExport_eq_of_offers (by rcases hnothing with h | h <;> simp [h]) hoffers
    rcases hnothing with h | h <;> simp [h] at hok
  · intro hnone
    cases hanswer : map.resolveExport key name with
    | ok t => exact absurd ((resolveExport_eq_ok_iff.1 hanswer t).2 rfl) (hnone t)
    | error fault =>
        cases fault with
        | missing => exact .inl rfl
        | circular => exact .inr rfl
        | ambiguous =>
            obtain ⟨t, -, -, ht, -⟩ := resolveExport_eq_ambiguous_iff.1 hanswer
            exact absurd ht (hnone t)

/-- The order of `export *` does not change what a name stands for. -/
theorem Reorders.resolveExport (h : map.Reorders map') (key : ModuleKey) (name : String) :
    map'.resolveExport key name = map.resolveExport key name := by
  cases hanswer : map.resolveExport key name with
  | ok t =>
      rw [resolveExport_eq_ok_iff] at hanswer ⊢
      exact fun t' => (h.offers _ t').trans (hanswer t')
  | error fault =>
      cases fault with
      | ambiguous =>
          rw [resolveExport_eq_ambiguous_iff] at hanswer ⊢
          simpa only [h.offers] using hanswer
      | circular =>
          rw [resolveExport_eq_circular_iff] at hanswer ⊢
          exact (h.endless _).2 hanswer
      | missing =>
          have hnone := resolveExport_eq_nothing_iff.1 (.inl hanswer)
          have hnothing := resolveExport_eq_nothing_iff.2
            fun t ht => hnone t ((h.offers _ t).1 ht)
          refine hnothing.resolve_right fun hcircular => ?_
          rw [resolveExport_eq_circular_iff, h.endless] at hcircular
          rw [resolveExport_eq_circular_iff.2 hcircular] at hanswer
          simp at hanswer

/-- What a name stands for is what it leads to in the graph of re-exports: a target if it is the
only one, ambiguous if there are several, and nothing if there is none. The search ends before its
bound, and the order of `export *` does not matter. -/
theorem resolveExport_iff (map : ModuleMap) (key : ModuleKey) (name : String) :
    (∀ depth, map.exportBound < depth →
      (map.followExport depth key name []).1 = map.resolveExport key name) ∧
    (∀ t, map.resolveExport key name = .ok t ↔ ∀ t', map.Offers (key, name) t' ↔ t' = t) ∧
    (map.resolveExport key name = .error .ambiguous ↔
      ∃ t t', t ≠ t' ∧ map.Offers (key, name) t ∧ map.Offers (key, name) t') ∧
    (map.resolveExport key name = .error .missing ∨
        map.resolveExport key name = .error .circular ↔
      ∀ t, ¬ map.Offers (key, name) t) ∧
    ∀ map' : ModuleMap, map.Reorders map' →
      map'.resolveExport key name = map.resolveExport key name := by
  refine ⟨fun depth hdepth => ?_, fun t => resolveExport_eq_ok_iff, resolveExport_eq_ambiguous_iff,
    resolveExport_eq_nothing_iff, fun map' h => h.resolveExport key name⟩
  have hroom := Nat.lt_succ_of_le (map.room_le_exportBound name [])
  exact congrArg Prod.fst (followExport_eq (.inl rfl) hroom hdepth)

end ModuleMap

end ModuleGraph
