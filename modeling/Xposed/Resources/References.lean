import Xposed.Libc

/-!
# Resource references in binary XML

`XResources_rewriteXmlReferencesNative` replaces the resource IDs of an app
package in a parsed document, in place: those of the attribute names in the
document's resource map, and those in attribute values.
-/

namespace Xposed.Resources

/-- `ResXMLTree_attribute`, with its numbers as `dtohl` gives them: the index of
the name, which is negative if there is none, and the typed value. `rest` is all
the rest of it. -/
structure ResXMLTree_attribute (R : Type) where
  name : Int32
  dataType : UInt8
  data : UInt32
  rest : R
  deriving DecidableEq

/-- What `next` of the parser comes to: a start tag with its attributes, or
something else. -/
inductive Node (R : Type) where
  | startTag (attributes : List (ResXMLTree_attribute R))
  | other (code : UInt32)
  deriving DecidableEq

/-- `ResXMLTree`: the resource map, the string pool and the nodes up to the end
of the document, or to where it is bad. -/
structure ResXMLTree (S R : Type) where
  mResIds : List UInt32
  mStrings : Nat → S
  nodes : List (Node R)

/-- `ResXMLParser`, that has passed `position` nodes. -/
structure ResXMLParser (S R : Type) where
  mTree : ResXMLTree S R
  position : Nat

def ResXMLParser.restart {S R : Type} (parser : ResXMLParser S R) : ResXMLParser S R :=
  { parser with position := 0 }

/-- The static methods of `XResources` for the two resources of a call. `none`:
an exception is thrown. -/
structure XResources (S : Type) where
  translateResId : UInt32 → Option UInt32
  translateAttrId : S → Option UInt32

def TYPE_REFERENCE : UInt8 := 1

/-- The first ID of the app packages. -/
def appPackage : UInt32 := 0x7f000000

/-- The resource map, and what `translateResId` was called for. -/
structure Rewriting where
  mResIds : List UInt32
  translated : List UInt32
  deriving DecidableEq

section
variable {S R : Type}

/-- "find resource IDs for attribute names" -/
def rewriteName (java : XResources S) (mStrings : Nat → S) (attrNameID : Int32)
    (mResIds : List UInt32) : Option (List UInt32) :=
  if 0 ≤ attrNameID then
    let id := attrNameID.toInt.toNat
    match mResIds[id]? with
    | none => some mResIds
    | some resId =>
      if appPackage ≤ resId then
        (java.translateAttrId (mStrings id)).map fun attrResID => mResIds.set id attrResID
      else some mResIds
  else some mResIds

/-- The value goes on to `translateResId`: `oldValue` is a `jint`. -/
def ResXMLTree_attribute.passes (attr : ResXMLTree_attribute R) : Bool :=
  attr.dataType == TYPE_REFERENCE && !(attr.data.toInt32 < appPackage.toInt32)

/-- "find original resource IDs for reference values", with an exception or not. -/
def rewriteValue (java : XResources S) (attr : ResXMLTree_attribute R) (s : Rewriting) :
    ResXMLTree_attribute R × Rewriting × Bool :=
  if !attr.passes then (attr, s, false)
  else
    let oldValue := attr.data
    let s := { s with translated := s.translated ++ [oldValue] }
    match java.translateResId oldValue with
    | none => (attr, s, true)
    | some newValue =>
      (if newValue ≠ oldValue then { attr with data := newValue } else attr, s, false)

/-- The loop over the attributes of a start tag. -/
def rewriteAttributes (java : XResources S) (mStrings : Nat → S) :
    List (ResXMLTree_attribute R) → Rewriting → List (ResXMLTree_attribute R) × Rewriting × Bool
  | [], s => ([], s, false)
  | attr :: rest, s =>
    match rewriteName java mStrings attr.name s.mResIds with
    | none => (attr :: rest, s, true)
    | some mResIds =>
      let (attr, s, thrown) := rewriteValue java attr { s with mResIds }
      if thrown then (attr :: rest, s, true)
      else
        let (rest, s, thrown) := rewriteAttributes java mStrings rest s
        (attr :: rest, s, thrown)

/-- The loop over `next`. -/
def rewriteNodes (java : XResources S) (mStrings : Nat → S) :
    List (Node R) → Rewriting → List (Node R) × Rewriting
  | [], s => ([], s)
  | .startTag attributes :: rest, s =>
    let (attributes, s, thrown) := rewriteAttributes java mStrings attributes s
    if thrown then (.startTag attributes :: rest, s)
    else
      let (rest, s) := rewriteNodes java mStrings rest s
      (.startTag attributes :: rest, s)
  | .other code :: rest, s =>
    let (rest, s) := rewriteNodes java mStrings rest s
    (.other code :: rest, s)

/-- `XResources_rewriteXmlReferencesNative`, and what `translateResId` was
called for. -/
def rewriteXmlReferencesNative (java : XResources S) (parser : ResXMLParser S R) :
    ResXMLParser S R × List UInt32 :=
  let mTree := parser.mTree
  let (nodes, s) :=
    rewriteNodes java mTree.mStrings (mTree.nodes.drop parser.position) ⟨mTree.mResIds, []⟩
  let mTree :=
    { mTree with
      mResIds := s.mResIds
      nodes := mTree.nodes.take parser.position ++ nodes }
  (ResXMLParser.restart { parser with mTree }, s.translated)

/-! ## What is meant -/

/-- Methods that do not throw. -/
def XResources.ofFunctions (translateResId : UInt32 → UInt32) (translateAttrId : S → UInt32) :
    XResources S :=
  ⟨fun id => some (translateResId id), fun name => some (translateAttrId name)⟩

/-- The value is a reference into an app package. -/
def ResXMLTree_attribute.isAppReference (attr : ResXMLTree_attribute R) : Bool :=
  attr.dataType == TYPE_REFERENCE && appPackage ≤ attr.data

def ResXMLTree_attribute.translate (translateResId : UInt32 → UInt32)
    (attr : ResXMLTree_attribute R) : ResXMLTree_attribute R :=
  if attr.isAppReference then { attr with data := translateResId attr.data } else attr

def Node.attributes : Node R → List (ResXMLTree_attribute R)
  | .startTag attributes => attributes
  | .other _ => []

def Node.mapAttributes (f : ResXMLTree_attribute R → ResXMLTree_attribute R) : Node R → Node R
  | .startTag attributes => .startTag (attributes.map f)
  | .other code => .other code

def ResXMLTree.attributes (tree : ResXMLTree S R) : List (ResXMLTree_attribute R) :=
  tree.nodes.flatMap Node.attributes

/-- Entry `i` of the resource map, after the names of `attributes` are translated. -/
def namedId (translateAttrId : S → UInt32) (mStrings : Nat → S)
    (attributes : List (ResXMLTree_attribute R)) (i : Nat) (id : UInt32) : UInt32 :=
  if appPackage ≤ id ∧ ∃ attr ∈ attributes, attr.name.toInt = i then
    translateAttrId (mStrings i)
  else id

/-- The IDs of app packages are translated, each value's once, and nothing else
has changed. -/
structure Translated (translateResId : UInt32 → UInt32) (translateAttrId : S → UInt32)
    (tree tree' : ResXMLTree S R) (calls : List UInt32) : Prop where
  mResIds : tree'.mResIds =
    tree.mResIds.mapIdx (namedId translateAttrId tree.mStrings tree.attributes)
  mStrings : tree'.mStrings = tree.mStrings
  nodes : tree'.nodes = tree.nodes.map (Node.mapAttributes (·.translate translateResId))
  calls : calls = (tree.attributes.filter (·.isAppReference)).map (·.data)

/-- What the code does with a value. -/
def ResXMLTree_attribute.rewrite (translateResId : UInt32 → UInt32) (attr : ResXMLTree_attribute R) :
    ResXMLTree_attribute R :=
  if attr.passes then { attr with data := translateResId attr.data } else attr

section
variable (f : UInt32 → UInt32) (g : S → UInt32) (mStrings : Nat → S)

/-- However often a name is translated, its entry is the translated ID. -/
theorem namedId_append (first second : List (ResXMLTree_attribute R)) (i : Nat) (id : UInt32) :
    namedId g mStrings second i (namedId g mStrings first i id) =
      namedId g mStrings (first ++ second) i id := by
  simp only [namedId, List.mem_append, or_and_right, exists_or]
  by_cases app : appPackage ≤ id
  · by_cases named : ∃ attr ∈ first, attr.name.toInt = i
    · simp [app, named]
    · simp [app, named]
  · simp [app]

theorem mapIdx_namedId_append (first second : List (ResXMLTree_attribute R))
    (mResIds : List UInt32) :
    (mResIds.mapIdx (namedId g mStrings first)).mapIdx (namedId g mStrings second) =
      mResIds.mapIdx (namedId g mStrings (first ++ second)) := by
  rw [List.mapIdx_mapIdx]
  congr 1
  funext i id
  exact namedId_append g mStrings first second i id

theorem mapIdx_namedId_nil (mResIds : List UInt32) :
    mResIds.mapIdx (namedId g mStrings ([] : List (ResXMLTree_attribute R))) = mResIds := by
  have same : namedId g mStrings ([] : List (ResXMLTree_attribute R)) = fun _ id => id := by
    funext i id
    simp [namedId]
  rw [same]
  apply List.ext_getElem?
  intro i
  simp

variable {g mStrings} {attr : ResXMLTree_attribute R} {mResIds : List UInt32}

theorem namedId_singleton (i : Nat) (id : UInt32) :
    namedId g mStrings [attr] i id =
      if appPackage ≤ id ∧ attr.name.toInt = i then g (mStrings i) else id := by
  simp [namedId]

/-- Without an entry of an app package for the name nothing changes. -/
theorem mapIdx_namedId_kept (others : ∀ (i : Nat) (id : UInt32), mResIds[i]? = some id →
    ¬ (appPackage ≤ id ∧ attr.name.toInt = i)) :
    mResIds.mapIdx (namedId g mStrings [attr]) = mResIds := by
  apply List.ext_getElem?
  intro i
  rw [List.getElem?_mapIdx]
  cases there : mResIds[i]? with
  | none => rfl
  | some id => rw [Option.map_some, namedId_singleton, if_neg (others i id there)]

/-- Otherwise it is that entry that changes. -/
theorem mapIdx_namedId_set {n : Nat} {resId : UInt32} (index : attr.name.toInt = n)
    (there : mResIds[n]? = some resId) (app : appPackage ≤ resId) :
    mResIds.mapIdx (namedId g mStrings [attr]) = mResIds.set n (g (mStrings n)) := by
  apply List.ext_getElem?
  intro i
  rw [List.getElem?_set, List.getElem?_mapIdx]
  by_cases here : n = i
  · subst here
    have inside := (List.getElem?_eq_some_iff.mp there).1
    rw [if_pos rfl, if_pos inside, there, Option.map_some, namedId_singleton, if_pos ⟨app, index⟩]
  · rw [if_neg here]
    cases mResIds[i]? with
    | none => rfl
    | some id =>
      have other : ¬ (appPackage ≤ id ∧ attr.name.toInt = i) := by omega
      rw [Option.map_some, namedId_singleton, if_neg other]

variable (g mStrings)

theorem rewriteName_eq (attr : ResXMLTree_attribute R) (mResIds : List UInt32) :
    rewriteName (.ofFunctions f g) mStrings attr.name mResIds =
      some (mResIds.mapIdx (namedId g mStrings [attr])) := by
  have named : 0 ≤ attr.name ↔ 0 ≤ attr.name.toInt := Int32.le_iff_toInt_le
  unfold rewriteName
  by_cases positive : 0 ≤ attr.name
  · have index : attr.name.toInt = attr.name.toInt.toNat := by
      have := named.mp positive
      omega
    rw [if_pos positive]
    generalize attr.name.toInt.toNat = n at index
    cases there : mResIds[n]? with
    | none =>
      simp only [there]
      rw [mapIdx_namedId_kept]
      rintro i id found ⟨_, same⟩
      have here : i = n := by omega
      rw [here, there] at found
      cases found
    | some resId =>
      simp only [there]
      by_cases app : appPackage ≤ resId
      · rw [if_pos app, mapIdx_namedId_set index there app]
        rfl
      · rw [if_neg app, mapIdx_namedId_kept]
        rintro i id found ⟨app', same⟩
        have here : i = n := by omega
        rw [here, there] at found
        cases found
        exact app app'
  · rw [if_neg positive, mapIdx_namedId_kept]
    rintro i id _ ⟨_, same⟩
    rw [named] at positive
    omega

theorem rewriteValue_eq (attr : ResXMLTree_attribute R) (s : Rewriting) :
    rewriteValue (.ofFunctions f g) attr s =
      (attr.rewrite f,
        { s with translated := s.translated ++ ([attr].filter (·.passes)).map (·.data) }, false) := by
  cases passes : attr.passes with
  | false => simp [rewriteValue, ResXMLTree_attribute.rewrite, passes]
  | true =>
    by_cases same : f attr.data = attr.data
    · simp [rewriteValue, ResXMLTree_attribute.rewrite, passes, XResources.ofFunctions, same]
    · simp [rewriteValue, ResXMLTree_attribute.rewrite, passes, XResources.ofFunctions, same]

theorem rewriteAttributes_eq (attributes : List (ResXMLTree_attribute R)) (s : Rewriting) :
    rewriteAttributes (.ofFunctions f g) mStrings attributes s =
      (attributes.map (·.rewrite f),
        ⟨s.mResIds.mapIdx (namedId g mStrings attributes),
          s.translated ++ (attributes.filter (·.passes)).map (·.data)⟩, false) := by
  induction attributes generalizing s with
  | nil => simp [rewriteAttributes, mapIdx_namedId_nil]
  | cons attr rest ih =>
    rw [rewriteAttributes, rewriteName_eq]
    simp only [rewriteValue_eq, Bool.false_eq_true, if_false, ih, mapIdx_namedId_append]
    rw [List.append_assoc, ← List.map_append, ← List.filter_append]
    rfl

theorem rewriteNodes_eq (nodes : List (Node R)) (s : Rewriting) :
    rewriteNodes (.ofFunctions f g) mStrings nodes s =
      (nodes.map (Node.mapAttributes (·.rewrite f)),
        ⟨s.mResIds.mapIdx (namedId g mStrings (nodes.flatMap Node.attributes)),
          s.translated ++ ((nodes.flatMap Node.attributes).filter (·.passes)).map (·.data)⟩) := by
  induction nodes generalizing s with
  | nil => simp [rewriteNodes, mapIdx_namedId_nil]
  | cons node rest ih =>
    cases node with
    | startTag attributes =>
      rw [rewriteNodes, rewriteAttributes_eq]
      simp only [Bool.false_eq_true, if_false, ih, mapIdx_namedId_append]
      rw [List.append_assoc, ← List.map_append, ← List.filter_append]
      rfl
    | other code =>
      rw [rewriteNodes, ih]
      rfl

end

theorem appPackage_le_iff (data : UInt32) : appPackage ≤ data ↔ 0x7f000000 ≤ data.toNat := by
  have bound : appPackage.toNat = 0x7f000000 := by decide
  rw [UInt32.le_iff_toNat_le, bound]

theorem lt_top_iff (data : UInt32) : data < 0x80000000 ↔ data.toNat < 0x80000000 := by
  have top : (0x80000000 : UInt32).toNat = 0x80000000 := by decide
  rw [UInt32.lt_iff_toNat_lt, top]

/-- As a `jint`, a value from 0x80000000 on is negative. -/
theorem passes_iff (attr : ResXMLTree_attribute R) :
    attr.passes = true ↔ attr.isAppReference = true ∧ attr.data < 0x80000000 := by
  have signed : attr.data.toInt32 < appPackage.toInt32 ↔
      ¬ (appPackage ≤ attr.data ∧ attr.data < 0x80000000) := by
    have jint : attr.data.toInt32.toInt =
        if 2 * attr.data.toNat < 2 ^ 32 then (attr.data.toNat : Int)
        else (attr.data.toNat : Int) - (2 ^ 32 : Nat) :=
      BitVec.toInt_eq_toNat_cond _
    have range := attr.data.toNat_lt
    have app : appPackage.toInt32.toInt = 0x7f000000 := by decide
    rw [Int32.lt_iff_toInt_lt, jint, app, appPackage_le_iff, lt_top_iff]
    split
    all_goals omega
  simp [ResXMLTree_attribute.passes, ResXMLTree_attribute.isAppReference, signed, and_assoc]

/-- A reference is passed on as it should be, unless its value is too large. -/
theorem passes_eq {attr : ResXMLTree_attribute R}
    (small : attr.dataType = TYPE_REFERENCE → attr.data < 0x80000000) :
    attr.passes = attr.isAppReference := by
  rw [Bool.eq_iff_iff, passes_iff]
  refine and_iff_left_of_imp fun app => small ?_
  simp only [ResXMLTree_attribute.isAppReference, Bool.and_eq_true, beq_iff_eq] at app
  exact app.1

section
variable {translateResId : UInt32 → UInt32} {translateAttrId : S → UInt32}

/-- **The IDs of a document are translated exactly** if and only if none of its
references has a value from 0x80000000 on. -/
theorem references_translated_iff (tree : ResXMLTree S R) :
    let parsed := rewriteXmlReferencesNative (.ofFunctions translateResId translateAttrId) ⟨tree, 0⟩
    (Translated translateResId translateAttrId tree parsed.1.mTree parsed.2 ∧
      parsed.1.position = 0) ↔
    ∀ attr ∈ tree.attributes, attr.dataType = TYPE_REFERENCE → attr.data < 0x80000000 := by
  simp only [rewriteXmlReferencesNative, rewriteNodes_eq, List.drop_zero, List.take_zero,
    List.nil_append, ResXMLParser.restart, and_true]
  constructor
  · rintro ⟨_, _, _, calls⟩ attr member reference
    by_cases app : appPackage ≤ attr.data
    · have called : attr.data ∈ (tree.attributes.filter (·.isAppReference)).map (·.data) := by
        apply List.mem_map.mpr
        refine ⟨attr, List.mem_filter.mpr ⟨member, ?_⟩, rfl⟩
        simp [ResXMLTree_attribute.isAppReference, reference, app]
      rw [← calls] at called
      obtain ⟨passed, passes, same⟩ := List.mem_map.mp called
      have small := ((passes_iff passed).mp (List.mem_filter.mp passes).2).2
      rwa [same] at small
    · rw [appPackage_le_iff] at app
      rw [lt_top_iff]
      omega
  · intro small
    have same : ∀ attr ∈ tree.attributes, attr.passes = attr.isAppReference := fun attr member =>
      passes_eq (small attr member)
    refine ⟨rfl, rfl, ?_, ?_⟩
    · apply List.map_congr_left
      intro node member
      cases node with
      | other code => rfl
      | startTag attributes =>
        refine congrArg Node.startTag (List.map_congr_left fun attr inside => ?_)
        rw [ResXMLTree_attribute.rewrite, ResXMLTree_attribute.translate, same attr]
        exact List.mem_flatMap.mpr ⟨_, member, inside⟩
    · exact congrArg (List.map _) (List.filter_congr same)

end

end

/-- A document of one tag with an attribute of the app package. -/
def oneReference (data : UInt32) : ResXMLTree Nat Unit :=
  ⟨[0x7f010001], id, [.startTag [⟨0, TYPE_REFERENCE, data, ()⟩]]⟩

/-- A reference into a package from 0x80 on is left as it is. -/
theorem split_reference_kept : ¬ ∀ (translateResId : UInt32 → UInt32) (translateAttrId : Nat → UInt32)
    (tree : ResXMLTree Nat Unit),
    let parsed := rewriteXmlReferencesNative (.ofFunctions translateResId translateAttrId) ⟨tree, 0⟩
    Translated translateResId translateAttrId tree parsed.1.mTree parsed.2 ∧
      parsed.1.position = 0 := by
  intro translated
  have calls := (translated (· + 1) (fun _ => 5) (oneReference 0x80010001)).1.calls
  exact absurd calls (by decide)

end Xposed.Resources
