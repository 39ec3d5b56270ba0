import CloudCanvas.Proofs.Topology.Reachable

/-!
# Which insertions are admitted, and what they change

An insertion asks first whether its id is new and then whether everything it refers to is
there.  It is made in place, and the group around the element is changed before the element is
there; still the drawing stays as it was if the insertion is refused, for by then nothing has
been changed.  If it is done, one element stands behind the others, the group around it lists it
behind its others, and nothing else is different.

## Main definitions

* `Topology.AppendsNode`, `Topology.AppendsGroup`, `Topology.AppendsLink`: a drawing has one
  element more than another.
* `Topology.InsertsExactly`: when an insertion is done, why it is refused, and what it
  changes.

The main statement is `Topology.insertsExactly_of_reachable`.
-/

namespace CloudCanvas

namespace Topology

/-! ## What an insertion is to change -/

/-- The group with an id takes a change, and the others stay as they are.  Without an id no
group changes. -/
def ChangesGroup (parent : Option String) (change : Group → Group)
    (groups changed : List Group) : Prop :=
  match parent with
  | none => changed = groups
  | some id => ∃ before outer after, groups = before ++ outer :: after ∧ outer.id = id ∧
      changed = before ++ change outer :: after

/-- A drawing with a node more: it is the last one, without the properties that have no
value, and the last one in the group around it. -/
structure AppendsNode (t : Topology) (node : Node) (u : Topology) : Prop where
  nodes_eq : u.nodes = t.nodes ++ [{ node with properties := node.properties.withoutNulls }]
  groups : ChangesGroup node.group
    (fun outer => { outer with childNodes := outer.childNodes ++ [node.id] }) t.groups u.groups
  links_eq : u.links = t.links

/-- A drawing with a group more: it is the last one, empty and without the properties that
have no value, and the last one in the group around it. -/
structure AppendsGroup (t : Topology) (group : Group) (u : Topology) : Prop where
  nodes_eq : u.nodes = t.nodes
  groups : ∃ kept, ChangesGroup group.parent
      (fun outer => { outer with childGroups := outer.childGroups ++ [group.id] }) t.groups kept ∧
    u.groups = kept ++ [{ group with
      properties := group.properties.withoutNulls, childGroups := [], childNodes := [] }]
  links_eq : u.links = t.links

/-- A drawing with a link more: it is the last one, without the properties that have no
value. -/
structure AppendsLink (t : Topology) (link : Link) (u : Topology) : Prop where
  nodes_eq : u.nodes = t.nodes
  groups_eq : u.groups = t.groups
  links_eq : u.links = t.links ++ [{ link with properties := link.properties.withoutNulls }]

/-! ## When an insertion is to be refused -/

/-- The group that an element is put into is there, if it is put into one at all. -/
def HasPlace (t : Topology) (parent : Option String) : Prop :=
  ∀ id, parent = some id → id ∈ t.groups.map (·.id)

/-- The group that an element is put into is not there. -/
def LacksPlace (t : Topology) (child : String) (parent : Option String)
    (e : IntegrityError) : Prop :=
  ∃ id, parent = some id ∧ id ∉ t.groups.map (·.id) ∧ e = .unknownParent child id

/-- Both ends of a link are there. -/
def HasEnds (t : Topology) (link : Link) : Prop :=
  link.source ∈ t.elementIds ∧ link.target ∈ t.elementIds

/-- An end of a link is not there, its target only if its source is. -/
def LacksEnd (t : Topology) (link : Link) (e : IntegrityError) : Prop :=
  link.source ∉ t.elementIds ∧ e = .danglingEndpoint link.id link.source ∨
    link.source ∈ t.elementIds ∧ link.target ∉ t.elementIds ∧
      e = .danglingEndpoint link.id link.target

/-- **An insertion is exact.**  It is done if its id is new and what it refers to is there.
An id in use is reported before anything else, and then what is missing.  Unless it is done,
the drawing stays as it was, and if it is, the drawing has one element more. -/
structure InsertsExactly (t : Topology) (edit : Edit) (id : String) (fits : Prop)
    (fault : IntegrityError → Prop) (appends : Topology → Prop) : Prop where
  done_iff : (t.apply edit).1 = .done ↔ id ∉ t.ids ∧ fits
  duplicate : id ∈ t.ids → (t.apply edit).1 = .refused (.duplicateId id)
  misfit : id ∉ t.ids → ¬ fits → ∃ e, fault e ∧ (t.apply edit).1 = .refused e
  unchanged : (t.apply edit).1 ≠ .done → (t.apply edit).2 = t
  appended : (t.apply edit).1 = .done → appends (t.apply edit).2

variable {t u : Topology}

/-- An insertion is exact if it goes well and fails as it should, and what it makes of the
drawing has one element more. -/
theorem insertsExactly_of_settle {edit : Edit} {id : String} {fits : Prop}
    {fault : IntegrityError → Prop} {appends : Topology → Prop}
    {result : Except IntegrityError Topology} (settles : t.apply edit = t.settle result)
    (ok : ∀ next, result = .ok next ↔ id ∉ t.ids ∧ fits ∧ next = u)
    (error : ∀ e, result = .error e ↔
      id ∈ t.ids ∧ .duplicateId id = e ∨ id ∉ t.ids ∧ fault e)
    (grown : id ∉ t.ids → fits → appends u) :
    t.InsertsExactly edit id fits fault appends := by
  cases result with
  | ok next =>
      obtain ⟨fresh, fit, rfl⟩ := (ok next).1 rfl
      rw [settle] at settles
      exact {
        done_iff := by simp [settles, fresh, fit]
        duplicate := fun used => absurd used fresh
        misfit := fun _ misfit => absurd fit misfit
        unchanged := fun notDone => absurd (congrArg Prod.fst settles) notDone
        appended := fun _ => settles ▸ grown fresh fit }
  | error e =>
      have misfit : ¬ (id ∉ t.ids ∧ fits) := fun ⟨fresh, fit⟩ =>
        absurd ((ok u).2 ⟨fresh, fit, rfl⟩) nofun
      rw [settle] at settles
      exact {
        done_iff := by simp [settles, misfit]
        duplicate := by
          intro used
          obtain ⟨-, rfl⟩ := ((error e).1 rfl).resolve_right fun ⟨fresh, _⟩ => fresh used
          exact congrArg Prod.fst settles
        misfit := by
          intro fresh _
          obtain ⟨-, missing⟩ := ((error e).1 rfl).resolve_left fun ⟨used, _⟩ => fresh used
          exact ⟨e, missing, congrArg Prod.fst settles⟩
        unchanged := fun _ => congrArg Prod.snd settles
        appended := by simp [settles] }

/-! ## Reports -/

theorem lacksPlace_iff {child : String} {parent : Option String} {e : IntegrityError} :
    t.LacksPlace child parent e ↔
      ∃ id, t.missingParent parent = some id ∧ .unknownParent child id = e := by
  simp only [LacksPlace, missingParent_eq_some_iff, and_assoc, eq_comm (a := e)]

theorem lacksEnd_iff {link : Link} {e : IntegrityError} :
    t.LacksEnd link e ↔
      ∃ id, t.missingEndpoint link = some id ∧ .danglingEndpoint link.id id = e := by
  simp only [LacksEnd, missingEndpoint_eq_some_iff]
  constructor
  · rintro (⟨source, rfl⟩ | ⟨source, target, rfl⟩)
    · exact ⟨_, .inl ⟨source, rfl⟩, rfl⟩
    · exact ⟨_, .inr ⟨source, target, rfl⟩, rfl⟩
  · rintro ⟨id, ⟨source, rfl⟩ | ⟨source, target, rfl⟩, rfl⟩
    · exact .inl ⟨source, rfl⟩
    · exact .inr ⟨source, target, rfl⟩

/-! ## Well-formed drawings -/

namespace WellFormed

variable (wf : t.WellFormed)
include wf

/-- In a well-formed drawing a change of what has the id of a group is a change of one
group. -/
theorem changesGroup {parent : Option String} {change listed : Group → Group}
    (place : t.HasPlace parent)
    (listed_eq : ∀ group, listed group = if parent = some group.id then change group else group) :
    ChangesGroup parent change t.groups (t.groups.map listed) := by
  cases parent with
  | none =>
      have same : t.groups.map listed = t.groups.map id :=
        List.map_congr_left fun group _ => by simp [listed_eq]
      rw [ChangesGroup, same, List.map_id]
  | some id =>
      obtain ⟨outer, mem, rfl⟩ := List.mem_map.1 (place id rfl)
      obtain ⟨before, after, split⟩ := List.append_of_mem mem
      refine ⟨before, outer, after, split, rfl, ?_⟩
      have others : ∀ group : Group, group.id ≠ outer.id → listed group = group := by
        intro group ne
        rw [listed_eq, if_neg (by simpa using ne.symm)]
      rw [split, map_of_split others (split ▸ wf.groupIds_nodup), listed_eq outer, if_pos rfl]

theorem appendsNode {node : Node} (place : t.HasPlace node.group) :
    t.AppendsNode node (t.withNode node) where
  nodes_eq := by simp [Topology.withNode]
  groups := by
    simp only [Topology.withNode, groups_enterNode]
    exact wf.changesGroup place fun _ => rfl
  links_eq := by simp [Topology.withNode]

theorem appendsGroup {group : Group} (place : t.HasPlace group.parent) :
    t.AppendsGroup group (t.withGroup group) where
  nodes_eq := by simp [Topology.withGroup]
  groups := by
    simp only [Topology.withGroup, groups_enterGroup]
    exact ⟨_, wf.changesGroup place fun _ => rfl, rfl⟩
  links_eq := by simp [Topology.withGroup]

end WellFormed

theorem appendsLink (link : Link) : t.AppendsLink link (t.withLink link) :=
  ⟨rfl, rfl, rfl⟩

/-- **Insertions are exact**, whatever the history of a drawing.  A node or a group is added if
its id is used by no node, group or link and the group around it is there, and a link if its
id is new and there is an element at both of its ends. -/
theorem insertsExactly_of_reachable (reachable : t.Reachable) :
    (∀ node : Node, t.InsertsExactly (.addNode node) node.id (t.HasPlace node.group)
      (t.LacksPlace node.id node.group) (t.AppendsNode node)) ∧
    (∀ group : Group, t.InsertsExactly (.addGroup group) group.id (t.HasPlace group.parent)
      (t.LacksPlace group.id group.parent) (t.AppendsGroup group)) ∧
    ∀ link : Link, t.InsertsExactly (.addLink link) link.id (t.HasEnds link)
      (t.LacksEnd link) (t.AppendsLink link) := by
  have wf := reachable.wellFormed
  refine ⟨fun node => ?_, fun group => ?_, fun link => ?_⟩
  · refine insertsExactly_of_settle (apply_addNode t node) (fun _ => addNode_eq_ok_iff)
      (fun e => ?_) fun _ => wf.appendsNode
    rw [addNode_eq_error_iff, lacksPlace_iff]
  · refine insertsExactly_of_settle (apply_addGroup t group) (fun _ => addGroup_eq_ok_iff)
      (fun e => ?_) fun _ => wf.appendsGroup
    rw [addGroup_eq_error_iff, lacksPlace_iff]
  · refine insertsExactly_of_settle (apply_addLink t link) (fun _ => addLink_eq_ok_iff)
      (fun e => ?_) fun _ _ => appendsLink link
    rw [addLink_eq_error_iff, lacksEnd_iff]

/-- In a drawing with a network, a node in it and a link from one to the other, a group with
stale lists is added to the network, and a node is not added to a node, nor a link under the
id of the network, whose ends are missing as well. -/
theorem insertsExactly_nested :
    let t := run ∅ [.addGroup ⟨⟨"net", "area", ∅, none, none⟩, [], []⟩,
      .addNode ⟨"a", "public-ip", ∅, some "net", none⟩, .addLink ⟨"wire", "net", "a", ∅⟩]
    let inner : Group := ⟨⟨"inner", "area", .ofList [("note", .null)], some "net", none⟩,
      ["stale"], ["a"]⟩
    let lost : Node := ⟨"b", "public-ip", ∅, some "a", none⟩
    let loose : Link := ⟨"net", "nowhere", "a", ∅⟩
    t.Reachable ∧ t.AppendsGroup inner (t.apply (.addGroup inner)).2 ∧
      t.apply (.addNode lost) = (.refused (.unknownParent "b" "a"), t) ∧
        t.apply (.addLink loose) = (.refused (.duplicateId "net"), t) := by
  intro t inner lost loose
  have reachable : t.Reachable := ⟨_, rfl⟩
  obtain ⟨nodes, groups, links⟩ := insertsExactly_of_reachable reachable
  have used : "net" ∈ t.ids := by decide +kernel
  have duplicate := (links loose).duplicate used
  have place : ¬ t.HasPlace lost.group := fun place =>
    absurd (place "a" rfl) (by decide +kernel)
  obtain ⟨e, ⟨id, parent, -, rfl⟩, refused⟩ := (nodes lost).misfit (by decide +kernel) place
  obtain rfl : "a" = id := Option.some.inj parent
  refine ⟨reachable, (groups inner).appended ?_, ?_, ?_⟩
  · refine (groups inner).done_iff.2 ⟨by decide +kernel, ?_⟩
    rintro id ⟨⟩
    decide +kernel
  · exact Prod.ext refused ((nodes lost).unchanged (by rw [refused]; nofun))
  · exact Prod.ext duplicate ((links loose).unchanged (by rw [duplicate]; nofun))

end Topology

end CloudCanvas
