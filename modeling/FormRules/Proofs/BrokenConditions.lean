import FormRules.Proofs.ConditionReads
import FormRules.Proofs.FieldFindings
import FormRules.Proofs.KeptOutcomes
import FormRules.Proofs.RuleReads

/-! Conditions on the state of a field that cannot be evaluated. A field with such a condition is treated as one without,
so a form says the same about data when they are taken out of all its fields. -/

namespace FormRules

namespace Fields

/-- Fields without those of some names. -/
def without (fields : Fields) (names : List String) : Fields :=
  names.foldl (fun rest name => Keyed.erase rest (.text name)) fields

theorem get_without (fields : Fields) (names : List String) (name : String) :
    get (fields.without names) name = if names.contains name then .null else get fields name := by
  induction names generalizing fields with
  | nil => rfl
  | cons first names ih =>
    have erased : get (Keyed.erase fields (.text first)) name = if name == first then .null else get fields name := by
      rw [get, Keyed.find?_erase, Scalar.coincides_text]
      split <;> rfl
    show get (without (Keyed.erase fields (.text first)) names) name = _
    rw [ih, erased, List.contains_cons]
    cases name == first <;> simp

end Fields

/-- Whether a condition is there and cannot be evaluated. -/
def Condition.isBroken (source : Source) (condition : Value) : Bool :=
  !condition.isNull && (evaluate source (ofValue condition)).toOption.isNone

theorem Condition.holdsOr_of_isBroken {source : Source} {condition : Value} (broken : isBroken source condition = true)
    (absent : Bool) : holdsOr absent source condition = absent := by
  obtain ⟨present, failed⟩ := Bool.and_eq_true_iff.mp broken
  unfold holdsOr
  rw [if_neg (by simpa using present)]
  cases ended : evaluate source (ofValue condition) with
  | ok answer =>
    rw [ended] at failed
    cases failed
  | error fault => rfl

/-- The conditions on the state of a field that cannot be evaluated, by name. -/
def brokenSlots (source : Source) (fields : Fields) : List String :=
  Dependency.slots.filter fun slot => Condition.isBroken source (Fields.get fields slot)

/-- A field without the conditions on its state that cannot be evaluated. -/
def withoutBroken (source : Source) (fields : Fields) : Fields := fields.without (brokenSlots source fields)

section Fields

variable (source : Source) (fields : Fields)

/-- What is taken out of a field, and what is kept. -/
theorem get_withoutBroken (name : String) : Fields.get (withoutBroken source fields) name =
    if name ∈ Dependency.slots ∧ Condition.isBroken source (Fields.get fields name) = true then .null
    else Fields.get fields name := by
  simp only [withoutBroken, Fields.get_without, List.contains_iff_mem, brokenSlots, List.mem_filter]

theorem said_withoutBroken {names : List String} (others : ∀ name ∈ names, name ∉ Dependency.slots) :
    ∀ name ∈ names, Fields.get (withoutBroken source fields) name = Fields.get fields name := by
  intro name member
  rw [get_withoutBroken, if_neg fun taken => others name member taken.1]

/-- A condition that cannot be evaluated comes to the same as none. -/
theorem holdsOr_withoutBroken (slot : String) (absent : Bool) :
    Condition.holdsOr absent source (Fields.get (withoutBroken source fields) slot) =
      Condition.holdsOr absent source (Fields.get fields slot) := by
  rw [get_withoutBroken]
  split
  next taken =>
    rw [Condition.holdsOr_of_isBroken taken.2]
    rfl
  next => rfl

theorem state_withoutBroken (asked : Bool) :
    FieldState.ofFields source (withoutBroken source fields) asked = FieldState.ofFields source fields asked := by
  simp only [FieldState.ofFields, holdsOr_withoutBroken]

end Fields

namespace Item

variable (source : Source)

mutual

/-- An item without the conditions that cannot be evaluated, in the fields that it is or holds. -/
def mended : Value → Value
  | .object fields =>
    match ItemSort.ofFields fields with
    | .ok .container => .object (mendedInside fields)
    | .ok .data => .object (withoutBroken source fields)
    | _ => .object fields
  | value => value

def mendedMembers : Value → Value
  | .list items => .list (mendedItems items)
  | value => value

def mendedItems : List Value → List Value
  | [] => []
  | item :: items => mended item :: mendedItems items

def mendedInside : List (Scalar × Value) → List (Scalar × Value)
  | [] => []
  | (key, value) :: fields =>
    (key, if key.coincides (.text "items") then mendedMembers value else value) :: mendedInside fields

end

end Item

/-- A form without the conditions on the state of its fields that cannot be evaluated. -/
def Form.mended (source : Source) : Value → Value
  | .object fields => .object (Item.mendedInside source fields)
  | form => form

namespace Item

section Mended

variable (source : Source)

theorem mendedItems_eq_map (items : List Value) : mendedItems source items = items.map (mended source) := by
  induction items with
  | nil => rfl
  | cons item items ih => rw [mendedItems, ih, List.map_cons]

theorem find?_mendedInside (fields : Fields) (name : String) : Keyed.find? (mendedInside source fields) (.text name) =
    (Keyed.find? fields (.text name)).map (if name = "items" then mendedMembers source else id) := by
  induction fields with
  | nil => rfl
  | cons field fields ih =>
    obtain ⟨key, value⟩ := field
    rw [mendedInside, Keyed.find?_cons, Keyed.find?_cons, ih]
    by_cases here : key.coincides (.text name) = true
    · obtain rfl := Keyed.eq_of_coincides_text here
      rw [if_pos here, if_pos here, Scalar.coincides_text]
      by_cases items : name = "items" <;> simp [items]
    · rw [if_neg here, if_neg here]

theorem get_mendedInside_items (fields : Fields) :
    Fields.get (mendedInside source fields) "items" = mendedMembers source (Fields.get fields "items") := by
  rw [Fields.get, find?_mendedInside, if_pos rfl, Fields.get]
  cases Keyed.find? fields (.text "items") <;> rfl

theorem agree_mendedInside (fields : Fields) : AgreeOutside (mendedInside source fields) fields := by
  intro name apart
  rw [Fields.get, find?_mendedInside, if_neg apart, Option.map_id]
  rfl

theorem listed_mendedMembers (value : Value) :
    listed (mendedMembers source value) = mendedItems source (listed value) := by
  cases value <;> rfl

/-- What a form lists is mended one by one; in what is no list there is nothing to mend. -/
theorem items_mendedMembers (value : Value) : ((mendedMembers source value).orElse (.list [])).items =
    ((value.orElse (.list [])).items).map (mendedItems source) := by
  have scalars (keys : List Scalar) : mendedItems source (keys.map .scalar) = keys.map .scalar := by
    rw [mendedItems_eq_map, List.map_map]
    rfl
  cases value with
  | list items => cases items <;> rfl
  | scalar key =>
    unfold mendedMembers Value.orElse
    split
    · cases key with
      | text shown =>
        have chars : shown.toList.map (fun c => Value.text (String.singleton c)) =
            (shown.toList.map fun c => Scalar.text (String.singleton c)).map .scalar := by rw [List.map_map]; rfl
        show Except.ok _ = Except.ok (mendedItems source _)
        rw [chars, scalars]
      | _ => rfl
    · rfl
  | object fields =>
    unfold mendedMembers Value.orElse
    split
    · show Except.ok _ = Except.ok (mendedItems source _)
      rw [scalars]
    · rfl
  | handle name =>
    unfold mendedMembers Value.orElse
    split <;> rfl

theorem ofList_eq_map (items : List Value) : ofList items = items.map ofValue := by
  induction items with
  | nil => rfl
  | cons item items ih => rw [ofList, ih, List.map_cons]

/-- Whether an item holds the same fields when it is mended, at the same paths, but for the broken conditions. -/
def HoldsMended (value : Value) : Prop := ∀ parent path held,
  (ofValue (mended source value)).Holds parent path held ↔
    ∃ fields, (ofValue value).Holds parent path fields ∧ held = withoutBroken source fields

variable {source}

theorem holdsMended_of_none {value : Value} (same : mended source value = value)
    (none : ∀ parent path fields, ¬(ofValue value).Holds parent path fields) : HoldsMended source value := by
  intro parent path held
  rw [same]
  refine iff_of_false (none parent path held) ?_
  rintro ⟨fields, holds, _⟩
  exact none parent path fields holds

theorem holdsMended_data {fields : Fields} (sort : ItemSort.ofFields fields = .ok .data) :
    HoldsMended source (.object fields) := by
  obtain ⟨sort', name, place⟩ := placed_congr (said_withoutBroken source fields (by decide))
  intro parent path held
  simp only [mended, ofValue_object, sort'.trans sort, sort]
  constructor
  · intro holds
    obtain ⟨rfl, _, named, placed⟩ := holds.of_leaf
    exact ⟨fields, .leaf sort (name ▸ named) ((place parent).symm.trans placed), rfl⟩
  · rintro ⟨own, holds, rfl⟩
    obtain ⟨rfl, _, named, placed⟩ := holds.of_leaf
    exact .leaf (sort'.trans sort) (name ▸ named) ((place parent).trans placed)

/-- What one of several items holds, one of them holds when they are mended. -/
theorem exists_holds_mended {items : List Value} (each : ∀ item ∈ items, HoldsMended source item) (parent path : Value)
    (held : Fields) : (∃ item ∈ ofList (mendedItems source items), item.Holds parent path held) ↔
      ∃ fields, (∃ item ∈ ofList items, item.Holds parent path fields) ∧ held = withoutBroken source fields := by
  simp only [ofList_eq_map, mendedItems_eq_map, List.mem_map, exists_exists_and_eq_and]
  constructor
  · rintro ⟨item, member, holds⟩
    obtain ⟨fields, own, rest⟩ := (each item member parent path held).mp holds
    exact ⟨fields, ⟨item, member, own⟩, rest⟩
  · rintro ⟨fields, ⟨item, member, own⟩, rest⟩
    exact ⟨item, member, (each item member parent path held).mpr ⟨fields, own, rest⟩⟩

theorem holdsMended_container {fields : Fields} (sort : ItemSort.ofFields fields = .ok .container)
    (inside : ∀ item ∈ listed (Fields.get fields "items"), HoldsMended source item) :
    HoldsMended source (.object fields) := by
  have agree := agree_mendedInside source fields
  intro parent path held
  simp only [mended, ofValue_object, (ofFields_congr agree).trans sort, sort, get_mendedInside_items,
    listed_mendedMembers]
  constructor
  · intro holds
    cases holds with
    | container place member within =>
      obtain ⟨own, ⟨item, among, holds⟩, rfl⟩ := (exists_holds_mended inside _ _ _).mp ⟨_, member, within⟩
      exact ⟨own, .container ((pathOf_congr agree parent).symm.trans place) among holds, rfl⟩
  · rintro ⟨own, holds, rfl⟩
    cases holds with
    | container place member within =>
      obtain ⟨item, among, holds⟩ := (exists_holds_mended inside _ _ _).mpr ⟨own, ⟨_, member, within⟩, rfl⟩
      exact .container ((pathOf_congr agree parent).trans place) among holds

theorem holds_mended (value : Value) : HoldsMended source value ∧ ∀ item ∈ listed value, HoldsMended source item := by
  -- the items of a container are two levels down, in a list, so of a list the same is said of its members
  induction value using Value.nested_induction with
  | scalar | handle => exact ⟨holdsMended_of_none rfl (by intro _ _ _ holds; cases holds), List.forall_mem_nil _⟩
  | list items ih =>
    exact ⟨holdsMended_of_none rfl (by intro _ _ _ holds; cases holds), fun item member => (ih item member).1⟩
  | object fields ih =>
    refine ⟨?_, List.forall_mem_nil _⟩
    cases sort : ItemSort.ofFields fields with
    | error fault =>
      refine holdsMended_of_none (by rw [mended, sort]) fun parent path held holds => ?_
      rw [ofValue_object, sort] at holds
      cases holds
    | ok known =>
      cases known with
      | data => exact holdsMended_data sort
      | idle =>
        refine holdsMended_of_none (by rw [mended, sort]) fun parent path held holds => ?_
        rw [ofValue_object, sort] at holds
        obtain ⟨_, data, _⟩ := holds.of_leaf
        cases sort.symm.trans data
      | container =>
        refine holdsMended_container sort fun item member => ?_
        obtain ⟨value, found, among⟩ := exists_find?_of_listed member
        obtain ⟨_, held, _⟩ := Keyed.exists_mem_of_find? found
        exact (ih _ held).2 item among

end Mended

end Item

namespace Form

variable {source : Source}

theorem listIn_mendedInside (fields : Fields) : Pass.listIn (Item.mendedInside source fields) "items" =
    (Pass.listIn fields "items").map (Item.mendedItems source) := by
  unfold Pass.listIn
  rw [Item.get_mendedInside_items, Item.items_mendedMembers]

theorem hasField_iff {form path : Value} {items : List Item} {fields : Fields}
    (listed : Dependency.itemsOf form = .ok items) :
    HasField form path fields ↔ ∃ item ∈ items, Item.Holds (.text "") item path fields := by
  unfold HasField
  simp only [listed, Except.ok.injEq, exists_eq_left']

theorem not_hasField {form path : Value} {fault : Fault} {fields : Fields}
    (broken : Dependency.itemsOf form = .error fault) : ¬HasField form path fields := by
  rintro ⟨items, listed, _⟩
  cases broken.symm.trans listed

/-- A form that is mended has the same fields at the same paths, each without its conditions that cannot be evaluated. -/
theorem hasField_mended (form path : Value) (held : Fields) : HasField (mended source form) path held ↔
    ∃ fields, HasField form path fields ∧ held = withoutBroken source fields := by
  have absent {form other : Value} {fault fault' : Fault} (broken : Dependency.itemsOf form = .error fault)
      (broken' : Dependency.itemsOf other = .error fault') : HasField other path held ↔
        ∃ fields, HasField form path fields ∧ held = withoutBroken source fields :=
    iff_of_false (not_hasField broken') fun some => some.elim fun _ some => not_hasField broken some.1
  cases form with
  | scalar | list | handle => exact absent rfl rfl
  | object given =>
    have mended' : Dependency.itemsOf (mended source (.object given)) =
        ((Pass.listIn given "items").map (Item.mendedItems source)).map Item.ofList := by
      rw [← listIn_mendedInside]
      exact Dependency.itemsOf_object _
    have known : Dependency.itemsOf (.object given) = (Pass.listIn given "items").map Item.ofList :=
      Dependency.itemsOf_object given
    cases listed : Pass.listIn given "items" with
    | error fault =>
      rw [listed] at mended' known
      exact absent known mended'
    | ok items =>
      rw [listed] at mended' known
      rw [hasField_iff mended']
      simp only [hasField_iff known]
      exact Item.exists_holds_mended (fun item _ => (Item.holds_mended item).1) _ _ _

end Form

namespace Rule

/-- Callbacks that go by their value and their parameters alone overlook another form. -/
theorem Callbacks.Local.overlook_withForm {callbacks : Callbacks} (confined : callbacks.Local) (form : Value) :
    callbacks.Overlook (·.withForm form) where
  params := fun _ _ => rfl
  same := fun reference callback found argument _ => confined reference callback found argument _ _ rfl

/-- The standard backend does not look at the form itself. -/
theorem check_withForm {means : Means} (confined : means.callbacks.Local) (value : Value) (rule : Fields)
    (context : Context) (form : Value) (session : Session) :
    check means value rule (context.withForm form) session = check means value rule context session := by
  have overlook := confined.overlook_withForm form
  unfold check
  simp only
  split
  case h_3 => rw [checkCustom_overlooking overlook]
  case h_4 => rw [checkCrossField_overlooking overlook value context fun _ _ _ _ => rfl]
  case h_5 => rw [checkPlugin_overlooking overlook]
  all_goals rfl

end Rule

/-- A backend that is shown a form, whatever the form is that is checked. -/
def Backend.seeing {σ : Type} (form : Value) (backend : Backend σ) : Backend σ :=
  fun value rule context => backend value rule (context.withForm form)

namespace Pass

section Same

variable {σ : Type} (backend : Backend σ) (context : Context)

theorem checkLeaf_withoutBroken (fields : Fields) (parent : Value) :
    checkLeaf backend context (withoutBroken context.source fields) parent = checkLeaf backend context fields parent := by
  exact checkLeaf_of_said backend context (state_withoutBroken context.source fields)
    (said_withoutBroken context.source fields (by decide)) parent

/-- Whether an item is checked the same when it is mended. -/
def MendsAlike (value : Value) : Prop := ∀ parent,
  checkItem backend context parent (Item.ofValue (Item.mended context.source value)) =
    checkItem backend context parent (Item.ofValue value)

theorem checkItems_mended {items : List Value} (each : ∀ item ∈ items, MendsAlike backend context item)
    (parent : Value) (report : Report) :
    checkItems backend context parent report (Item.ofList (Item.mendedItems context.source items)) =
      checkItems backend context parent report (Item.ofList items) := by
  induction items generalizing report with
  | nil => rfl
  | cons item items ih =>
    obtain ⟨here, later⟩ := List.forall_mem_cons.mp each
    rw [Item.mendedItems, Item.ofList, Item.ofList, checkItems, checkItems, here parent]
    simp only [ih later]

/-- Items, alone and in lists, are checked as if the conditions in them that cannot be evaluated were not there. -/
theorem checkItem_mended (value : Value) : MendsAlike backend context value ∧
    ∀ item ∈ Item.listed value, MendsAlike backend context item := by
  induction value using Value.nested_induction with
  | scalar | handle => exact ⟨fun _ => rfl, List.forall_mem_nil _⟩
  | list items ih => exact ⟨fun _ => rfl, fun item member => (ih item member).1⟩
  | object fields ih =>
    refine ⟨fun parent => ?_, List.forall_mem_nil _⟩
    rw [Item.mended]
    cases sort : ItemSort.ofFields fields with
    | error fault => rfl
    | ok known =>
      cases known with
      | idle => rfl
      | data =>
        have sort' : ItemSort.ofFields (withoutBroken context.source fields) = .ok .data :=
          (Item.placed_congr (said_withoutBroken context.source fields (by decide))).1.trans sort
        simp only [Item.ofValue_object, sort, sort', checkItem, checkLeaf_withoutBroken]
      | container =>
        have agree := Item.agree_mendedInside context.source fields
        have sort' : ItemSort.ofFields (Item.mendedInside context.source fields) = .ok .container :=
          (Item.ofFields_congr agree).trans sort
        have inside : ∀ item ∈ Item.listed (Fields.get fields "items"), MendsAlike backend context item := by
          intro item member
          obtain ⟨value, found, among⟩ := Item.exists_find?_of_listed member
          obtain ⟨_, held, _⟩ := Keyed.exists_mem_of_find? found
          exact (ih _ held).2 item among
        simp only [Item.ofValue_object, sort, sort', checkItem, Item.pathOf_congr agree,
          Item.get_mendedInside_items, Item.listed_mendedMembers, checkItems_mended backend context inside]

end Same

section Passes

variable {σ : Type} {context : Context} {backend backend' : Backend σ} {form : Value}

/-- Steps on the same items in contexts that differ in their forms go alike, if backends do that are asked in them. -/
theorem checkItems_withForm (alike : ∀ value rule path state,
      backend' value rule ((context.withForm form).child path) state = backend value rule (context.child path) state)
    (parent : Value) (report : Report) (items : List Item) :
    Paired (Twins Eq Eq) (checkItems backend context parent report items)
      (checkItems backend' (context.withForm form) parent report items) := by
  refine checkItems_paired ?_ items parent report fun _ _ _ _ _ subject rule poses => ⟨?_, ?_⟩
  · rfl
  · rintro _ state _ rfl
    have same := alike subject.value rule subject.context.path state
    rw [← poses.inside] at same
    rw [same]
    exact ⟨rfl, rfl⟩
  · rintro _ key _ score scores _ rfl
    rfl

theorem checkForm_mended_paired (alike : ∀ value rule path state, backend' value rule
      ((context.withForm (Form.mended context.source context.form)).child path) state =
        backend value rule (context.child path) state) :
    Paired (Twins Eq Eq) (checkForm backend context)
      (checkForm backend' (context.withForm (Form.mended context.source context.form))) := by
  cases given : context.form with
  | scalar | list | handle =>
    unfold checkForm
    rw [given]
    exact .throw _
  | object fields =>
    rw [given] at alike
    have agree := Item.agree_mendedInside context.source fields
    have scoring : listIn (Item.mendedInside context.source fields) "computedRules" = listIn fields "computedRules" := by
      rw [listIn, agree "computedRules" (by decide)]
      rfl
    unfold checkForm
    rw [given]
    show Paired _ (liftM (listIn fields "items") >>= _)
      (liftM (listIn (Item.mendedInside context.source fields) "items") >>= _)
    rw [Form.listIn_mendedInside, scoring]
    cases listIn fields "items" with
    | error fault => exact .throw fault
    | ok items =>
      show Paired _ (checkItems backend context (.text "") Report.counting (Item.ofList items) >>= _)
        (checkItems backend' _ (.text "") Report.counting (Item.ofList (Item.mendedItems context.source items)) >>= _)
      rw [← checkItems_mended backend context fun item _ => (checkItem_mended backend context item).1]
      refine (checkItems_withForm alike _ _ _).bind fun report => (Paired.lift _).bind fun rules => ?_
      refine Paired.get_bind fun p q twins => ?_
      have scored (form : Value) (all : FormScores) : FormScores.applyAll (context.withForm form) all rules =
        FormScores.applyAll context all rules := applyAll_congr (by rfl) all rules
      rw [scored, twins.scores]
      exact (Paired.lift _).bind fun all => .pure _

/-- A form that is mended has its fields where they were, without the conditions on their state that cannot be evaluated
on the data, and a pass over it comes to the same: to the same report, or to the same fault. The contexts of fields hold
the form. So the backend is shown the form as it was, or it is one that does not tell the two forms apart. -/
theorem checkForm_mended (backend : Backend σ) (context : Context) (state : σ) :
    let mended := context.withForm (Form.mended context.source context.form)
    let result := ((checkForm backend context).run.run { backend := state }).1
    (∀ path held, Form.HasField mended.form path held ↔
        ∃ fields, Form.HasField context.form path fields ∧ held = withoutBroken context.source fields) ∧
      ((checkForm (backend.seeing context.form) mended).run.run { backend := state }).1 = result ∧
      ((∀ value rule path state,
          backend value rule (mended.child path) state = backend value rule (context.child path) state) →
        ((checkForm backend mended).run.run { backend := state }).1 = result) := by
  intro mended result
  have start : Twins Eq Eq ({ backend := state } : Progress σ) { backend := state } := ⟨rfl, rfl, rfl⟩
  exact ⟨fun path held => Form.hasField_mended context.form path held,
    ((checkForm_mended_paired fun _ _ _ _ => rfl).result_eq start).symm,
    fun alike => ((checkForm_mended_paired alike).result_eq start).symm⟩

end Passes

open Item in
/-- A field with a text as its name, in a group, whose conditions ask for no field by name. -/
theorem checkForm_mended_phone :
    let broken : Value := .ofFields [("field", .null), ("operator", .text "=="), ("value", .int 1)]
    let rules : Value := .list [.ofFields [("type", .text "required")]]
    let form (field : List (String × Value)) : Value := .ofFields [("items", .list [.ofFields [("type", .text "group"),
      ("items", .list [.ofFields (("name", .text "phone") :: ("validationRules", rules) :: field)])]])]
    let context := (Context.ofData (.ofFields [("phone", .text "")])).withForm
      (form [("visibleIf", broken), ("disabledIf", .ofFields [("phone", .text "1")]), ("requiredIf", broken)])
    let plain := context.withForm (form [("disabledIf", .ofFields [("phone", .text "1")])])
    let rejecting : Backend Unit := fun _ rule _ state => (.ok (.failure rule "No"), state)
    ((checkForm rejecting plain).run.run { backend := () }).1 =
      ((checkForm rejecting context).run.run { backend := () }).1 := by
  intro broken rules form context plain rejecting
  have mended : context.withForm (Form.mended context.source context.form) = plain := rfl
  have same := (checkForm_mended rejecting context ()).2.2 fun _ _ _ _ => rfl
  rwa [mended] at same

/-- A backend that looks for a condition in the form tells the form that is mended from the one as it was. -/
theorem checkForm_mended_told :
    let broken : Value := .ofFields [("field", .null), ("operator", .text "=="), ("value", .int 1)]
    let rules : Value := .list [.ofFields [("type", .text "required")]]
    let context (slots : List (String × Value)) : Context := (Context.ofData (.ofFields [("phone", .text "1")])).withForm
      (.ofFields [("items", .list [.ofFields (("name", .text "phone") :: ("validationRules", rules) :: slots)])])
    let given := context [("visibleIf", broken)]
    let looking : Backend Unit := fun _ rule seen state =>
      let found := match seen.form with
        | .object [(_, .list [.object field])] => Fields.has field "visibleIf"
        | _ => false
      (.ok (if found then .failure rule "No" else .pass), state)
    let valid? (context : Context) :=
      ((checkForm looking context).run.run { backend := () }).1.toOption.map (·.valid.truthy)
    given.withForm (Form.mended given.source given.form) = context [] ∧
      valid? given = some false ∧ valid? (context []) = some true := by
  refine ⟨rfl, ?_⟩
  decide +kernel

/-- The standard backend comes to the same on a form that is mended, if its callbacks go by their value and their
parameters alone. -/
theorem check_mended {means : Rule.Means} (confined : means.callbacks.Local) (context : Context)
    (session : Rule.Session) :
    ((checkForm (Rule.check means) (context.withForm (Form.mended context.source context.form))).run.run
        { backend := session }).1 =
      ((checkForm (Rule.check means) context).run.run { backend := session }).1 := by
  have alike (value : Value) (rule : Fields) (path : List Value) (session : Rule.Session) :=
    Rule.check_withForm confined value rule (context.child path) (Form.mended context.source context.form) session
  exact ((checkForm_mended_paired alike).result_eq ⟨rfl, rfl, rfl⟩).symm

end Pass

end FormRules
