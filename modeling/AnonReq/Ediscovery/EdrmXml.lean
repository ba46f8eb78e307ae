import AnonReq.Ediscovery.Formats
import AnonReq.Foundation.Runs

/-!
# What the XML of an export keeps

`to_edrm_xml` of `ediscovery/formats.py`: the document is well-formed, and the fields of each record
are elements with different names in the element of the record.

* `XmlSound` says so of a reading of the document, `XmlOk` is the condition on the records and the
  metadata under which it holds.
* `serialized_iff`: the three formats of an export.
* `not_serialized`: a record whose provider is not in its column.
-/

namespace AnonReq.Ediscovery.Formats

open Audit

variable {shown : Text → Text} (P : Python)

/-! ### The property and its condition -/

/-- The namespaces of the tags for the fields of the records. -/
def namespaces (records : List (ConsolidatedRecord shown)) : List Text :=
  (records.flatMap fun r => (valued r.source ++ valued r.metadata).filterMap fun f =>
    (namespaceOf (xmlTag P f.1)).map Prod.fst).eraseDups

/-- The name of the element for a key. -/
def elementName (records : List (ConsolidatedRecord shown)) (key : Text) : Option Text :=
  qname (namespaces P records) (xmlTag P key)

/-- The children with a name. -/
def childrenNamed (name : String) (e : Xml.Element) : List Xml.Element :=
  e.children.filter fun child => child.name = name.toList

/-- Every field that has a value is a child with the name for its key and with its text. -/
def FieldsShown (records : List (ConsolidatedRecord shown)) (fields : List (Text × Json))
    (e : Xml.Element) : Prop :=
  ∀ f ∈ valued fields, ∃ child ∈ e.children,
    elementName P records f.1 = some child.name ∧ child.text = P.str f.2

/-- The names for different keys are different. -/
def NamesDiffer (records : List (ConsolidatedRecord shown)) (fields : List (Text × Json)) : Prop :=
  ∀ f ∈ valued fields, ∀ g ∈ valued fields,
    elementName P records f.1 = elementName P records g.1 → f.1 = g.1

/-- What is asked of the element of a record. -/
structure RecordShown (records : List (ConsolidatedRecord shown)) (r : ConsolidatedRecord shown)
    (document : Xml.Element) : Prop where
  source : FieldsShown P records r.source document
  metadata : valued r.metadata ≠ [] →
    ∃ e ∈ childrenNamed "Metadata" document, FieldsShown P records r.metadata e
  sourceNames : NamesDiffer P records r.source
  metadataNames : NamesDiffer P records r.metadata

/-- The document is well-formed, and has the fields of every record in its element. -/
def XmlSound (records : List (ConsolidatedRecord shown)) (metadata : Option EDRMMetadata) : Prop :=
  ∃ text root, toEdrmXml P records metadata = some text ∧ Xml.readDocument text = some root ∧
    List.Forall₂ (RecordShown P records) records
      ((childrenNamed "Documents" root).flatMap (childrenNamed "Document"))

/-- The texts for the case and the request. -/
def headTexts (m : EDRMMetadata) : List String :=
  [m.caseId, m.caseName, m.matter, m.customer, m.requestId, m.requestName, m.requestType, m.notes]

/-- The tag for a key is a name, and the text of its value has characters of XML only, and no
carriage return. -/
structure FieldOk (records : List (ConsolidatedRecord shown)) (f : Text × Json) : Prop where
  name : ∃ name, elementName P records f.1 = some name ∧ Xml.isName name = true
  chars : (P.str f.2).all Xml.isChar = true
  lineEnds : '\r' ∉ P.str f.2

/-- The identifiers and the tenants are texts or empty, all texts have characters of XML only, and
the fields have names that are different. -/
structure XmlOk (records : List (ConsolidatedRecord shown)) (metadata : Option EDRMMetadata) :
    Prop where
  head : ∀ m ∈ metadata, ∀ text ∈ headTexts m, text.toList.all Xml.isChar = true
  ids : ∀ r ∈ records, ∃ text, writtenText r.id = some text ∧ text.all Xml.isChar = true
  custodians : ∀ r ∈ records, ∃ tid, r.custodian = some tid ∧ tid.all Xml.isChar = true
  namespaces : ∀ uri ∈ namespaces P records, uri.all Xml.isChar = true
  fields : ∀ r ∈ records, ∀ f ∈ valued r.source ++ valued r.metadata, FieldOk P records f
  sourceNames : ∀ r ∈ records, NamesDiffer P records r.source
  metadataNames : ∀ r ∈ records, NamesDiffer P records r.metadata

/-! ### Trees -/

section Everywhere

variable (Q : Text → List (Text × Text) → Json → Prop)

mutual

/-- Every element of a tree has a property. -/
def Everywhere : Element → Prop
  | ⟨tag, attrib, text, children⟩ => Q tag attrib text ∧ EverywhereAll children

def EverywhereAll : List Element → Prop
  | [] => True
  | e :: elements => Everywhere e ∧ EverywhereAll elements

end

variable {Q}

theorem everywhereAll_iff (elements : List Element) :
    EverywhereAll Q elements ↔ ∀ e ∈ elements, Everywhere Q e := by
  induction elements with
  | nil => exact iff_of_true trivial fun _ h => absurd h List.not_mem_nil
  | cons e elements ih => rw [EverywhereAll, ih, List.forall_mem_cons]

theorem everywhere_leaf (tag : Text) (text : Json) :
    Everywhere Q (leaf tag text) ↔ Q tag [] text := by
  rw [leaf, Everywhere, EverywhereAll, and_true]

theorem everywhere_part (tag : String) (children : List Element) :
    Everywhere Q (part tag children) ↔
      Q tag.toList [] .null ∧ ∀ e ∈ children, Everywhere Q e := by
  rw [part, Everywhere, everywhereAll_iff]

end Everywhere

section Resolved

variable (ns : List Text)

mutual

/-- An element as it is written, where its name and its text can be. -/
def resolved : Element → Xml.Element
  | ⟨tag, attrib, text, children⟩ =>
    ⟨(qname ns tag).getD [], attrib, (writtenText text).getD [], resolvedAll children⟩

def resolvedAll : List Element → List Xml.Element
  | [] => []
  | e :: elements => resolved e :: resolvedAll elements

end

variable {ns}

/-- The name and the text of an element can be written. -/
abbrev WriteOk (ns : List Text) (tag : Text) (_ : List (Text × Text)) (text : Json) : Prop :=
  (qname ns tag).isSome = true ∧ (writtenText text).isSome = true

theorem resolvedAll_eq_map (elements : List Element) :
    resolvedAll ns elements = elements.map (resolved ns) := by
  induction elements with
  | nil => rfl
  | cons e elements ih => rw [resolvedAll, ih, List.map_cons]

mutual

/-- **Writing** succeeds exactly on what can be written. -/
theorem resolve_eq_some_iff : ∀ (e : Element) (x : Xml.Element),
    e.resolve ns = some x ↔ Everywhere (WriteOk ns) e ∧ resolved ns e = x
  | ⟨tag, attrib, text, children⟩, x => by
    rw [Element.resolve, Everywhere, resolved]
    constructor
    · intro h
      obtain ⟨name, hname, h⟩ := Option.bind_eq_some_iff.mp h
      obtain ⟨written, hwritten, h⟩ := Option.bind_eq_some_iff.mp h
      obtain ⟨xs, hxs, h⟩ := Option.bind_eq_some_iff.mp h
      obtain ⟨hall, rfl⟩ := (resolveAll_eq_some_iff children xs).mp hxs
      obtain rfl := Option.some.inj h
      refine ⟨⟨⟨?_, ?_⟩, hall⟩, ?_⟩
      · rw [hname]
        rfl
      · rw [hwritten]
        rfl
      · rw [hname, hwritten]
        rfl
    · rintro ⟨⟨⟨hname, hwritten⟩, hall⟩, rfl⟩
      obtain ⟨name, hname⟩ := Option.isSome_iff_exists.mp hname
      obtain ⟨written, hwritten⟩ := Option.isSome_iff_exists.mp hwritten
      rw [hname, hwritten, (resolveAll_eq_some_iff children _).mpr ⟨hall, rfl⟩]
      rfl

theorem resolveAll_eq_some_iff : ∀ (elements : List Element) (xs : List Xml.Element),
    Element.resolveAll ns elements = some xs ↔
      EverywhereAll (WriteOk ns) elements ∧ resolvedAll ns elements = xs
  | [], xs => by
    rw [Element.resolveAll, EverywhereAll, resolvedAll, Option.some_inj, true_and]
  | e :: elements, xs => by
    rw [Element.resolveAll, EverywhereAll, resolvedAll]
    constructor
    · intro h
      obtain ⟨x, hx, h⟩ := Option.bind_eq_some_iff.mp h
      obtain ⟨more, hmore, h⟩ := Option.bind_eq_some_iff.mp h
      obtain ⟨he, rfl⟩ := (resolve_eq_some_iff e x).mp hx
      obtain ⟨helements, rfl⟩ := (resolveAll_eq_some_iff elements more).mp hmore
      exact ⟨⟨he, helements⟩, Option.some.inj h⟩
    · rintro ⟨⟨he, helements⟩, rfl⟩
      rw [(resolve_eq_some_iff e _).mpr ⟨he, rfl⟩,
        (resolveAll_eq_some_iff elements _).mpr ⟨helements, rfl⟩]
      rfl

end

/-- The names of an element are names of XML. -/
abbrev NameOk (ns : List Text) (tag : Text) (attrib : List (Text × Text)) (_ : Json) : Prop :=
  Xml.isName ((qname ns tag).getD []) = true ∧ (∀ a ∈ attrib, Xml.isName a.1 = true) ∧
    (attrib.map Prod.fst).Nodup

/-- The texts of an element have characters of XML only. -/
abbrev CharsOk (ns : List Text) (tag : Text) (attrib : List (Text × Text)) (text : Json) : Prop :=
  ((qname ns tag).getD []).all Xml.isChar = true ∧
    (∀ a ∈ attrib, a.1.all Xml.isChar = true ∧ a.2.all Xml.isChar = true) ∧
      ((writtenText text).getD []).all Xml.isChar = true

mutual

theorem named_resolved : ∀ e : Element, Xml.Named (resolved ns e) ↔ Everywhere (NameOk ns) e
  | ⟨tag, attrib, text, children⟩ => by
    have hchildren := namedAll_resolvedAll children
    rw [resolved, Xml.Named, Everywhere, hchildren, and_assoc, and_assoc]

theorem namedAll_resolvedAll : ∀ elements : List Element,
    Xml.NamedAll (resolvedAll ns elements) ↔ EverywhereAll (NameOk ns) elements
  | [] => Iff.rfl
  | e :: elements => by
    rw [resolvedAll, Xml.NamedAll, EverywhereAll, named_resolved e, namedAll_resolvedAll elements]

end

mutual

theorem chars_resolved : ∀ e : Element, Xml.Chars (resolved ns e) ↔ Everywhere (CharsOk ns) e
  | ⟨tag, attrib, text, children⟩ => by
    have hchildren := charsAll_resolvedAll children
    rw [resolved, Xml.Chars, Everywhere, hchildren, and_assoc, and_assoc]

theorem charsAll_resolvedAll : ∀ elements : List Element,
    Xml.CharsAll (resolvedAll ns elements) ↔ EverywhereAll (CharsOk ns) elements
  | [] => Iff.rfl
  | e :: elements => by
    rw [resolvedAll, Xml.CharsAll, EverywhereAll, chars_resolved e, charsAll_resolvedAll elements]

end

end Resolved

/-! ### The tree of an export -/

section Tree

variable (tids : List Text) (records : List (ConsolidatedRecord shown))
  (metadata : Option EDRMMetadata)

/-- The texts for the case and the request, also where there is no metadata. -/
def headTextsOf : Option EDRMMetadata → List String
  | some m => headTexts m
  | none => ["", "eDiscovery Export", "Export", "PRODUCTION"]

/-- The tags that do not come from a key. -/
def fixedTags : List String :=
  ["EDRM", "Case", "CaseID", "CaseName", "Matter", "Customer", "Request", "RequestID",
    "RequestName", "RequestType", "Notes", "Custodians", "Custodian", "CustodianID",
    "CustodianName", "Documents", "Document", "DocID", "RecordID", "Metadata"]

section

variable {Q : Text → List (Text × Text) → Json → Prop} {T : Json → Prop}
  (hfixed : ∀ tag ∈ fixedTags, ∀ text, Q tag.toList [] text ↔ T text) (hnull : T .null)
include hfixed

theorem everywhere_fixed_leaf {tag : String} (htag : tag ∈ fixedTags) (text : Json) :
    Everywhere Q (leaf tag.toList text) ↔ T text := by
  rw [everywhere_leaf, hfixed tag htag]

include hnull

theorem everywhere_fixed_part {tag : String} (htag : tag ∈ fixedTags) (children : List Element) :
    Everywhere Q (part tag children) ↔ ∀ e ∈ children, Everywhere Q e := by
  rw [everywhere_part, hfixed tag htag, and_iff_right hnull]

theorem everywhere_head_iff : (∀ e ∈ head metadata, Everywhere Q e) ↔
    ∀ text ∈ headTextsOf metadata, T (.text text.toList) := by
  have hcase (children : List Element) :
      Everywhere Q (part "Case" children) ↔ ∀ e ∈ children, Everywhere Q e :=
    everywhere_fixed_part hfixed hnull (by decide) children
  have hrequest (children : List Element) :
      Everywhere Q (part "Request" children) ↔ ∀ e ∈ children, Everywhere Q e :=
    everywhere_fixed_part hfixed hnull (by decide) children
  have hleaf (tag : String) (htag : tag ∈ fixedTags) (text : String) :
      Everywhere Q (leaf tag.toList (.text text.toList)) ↔ T (.text text.toList) :=
    everywhere_fixed_leaf hfixed htag _
  have hid := hleaf "CaseID" (by decide)
  have hname := hleaf "CaseName" (by decide)
  have hmatter := hleaf "Matter" (by decide)
  have hcustomer := hleaf "Customer" (by decide)
  have hrequestId := hleaf "RequestID" (by decide)
  have hrequestName := hleaf "RequestName" (by decide)
  have htype := hleaf "RequestType" (by decide)
  have hnotes := hleaf "Notes" (by decide)
  have hnil {α : Type} (p : α → Prop) : (∀ a ∈ [], p a) ↔ True :=
    iff_of_true (fun _ h => absurd h List.not_mem_nil) trivial
  cases metadata with
  | none =>
    simp only [head, headTextsOf, List.forall_mem_cons, hcase, hrequest, hid, hname, hrequestId,
      hrequestName, htype, hnil, and_true]
    constructor
    · rintro ⟨⟨hid, hname⟩, -, hrequest, htype⟩
      exact ⟨hid, hname, hrequest, htype⟩
    · rintro ⟨hid, hname, hrequest, htype⟩
      exact ⟨⟨hid, hname⟩, hid, hrequest, htype⟩
  | some m =>
    simp only [head, headTextsOf, headTexts, List.forall_mem_cons, hcase, hrequest, hid, hname,
      hmatter, hcustomer, hrequestId, hrequestName, htype, hnotes, hnil, and_true, and_assoc]

theorem everywhere_custodian_iff (tid : Text) :
    Everywhere Q (custodian tid) ↔ T (.text tid) := by
  rw [custodian, everywhere_fixed_part hfixed hnull (by decide), List.forall_mem_cons,
    List.forall_mem_singleton, everywhere_fixed_leaf hfixed (by decide),
    everywhere_fixed_leaf hfixed (by decide), and_self]

theorem everywhere_document_iff (r : ConsolidatedRecord shown) (idx : ℕ) :
    Everywhere Q (document P r idx) ↔ T (.text (Json.decimal idx)) ∧ T r.id ∧
      ∀ f ∈ valued r.source ++ valued r.metadata, Q (xmlTag P f.1) [] (.text (P.str f.2)) := by
  have hfields (fields : List (Text × Json)) : (∀ e ∈ fieldElements P fields, Everywhere Q e) ↔
      ∀ f ∈ valued fields, Q (xmlTag P f.1) [] (.text (P.str f.2)) := by
    rw [fieldElements, List.forall_mem_map]
    simp only [everywhere_leaf]
  have hmetadata : (∀ e ∈ (if r.metadata.isEmpty then [] else
      [part "Metadata" (fieldElements P r.metadata)]), Everywhere Q e) ↔
        ∀ f ∈ valued r.metadata, Q (xmlTag P f.1) [] (.text (P.str f.2)) := by
    split_ifs with hempty
    · rw [List.isEmpty_iff.mp hempty]
      exact iff_of_true (fun _ h => absurd h List.not_mem_nil) fun _ h => absurd h List.not_mem_nil
    · rw [List.forall_mem_singleton, everywhere_fixed_part hfixed hnull (by decide), hfields]
  rw [document, everywhere_fixed_part hfixed hnull (by decide), List.forall_mem_cons,
    List.forall_mem_cons, List.forall_mem_append, List.forall_mem_append, hfields, hmetadata,
    everywhere_fixed_leaf hfixed (by decide), everywhere_fixed_leaf hfixed (by decide)]

/-- **The tree** has a property everywhere if its fixed elements, its texts and its fields do. -/
theorem everywhere_tree_iff (attrib : List (Text × Text)) :
    Everywhere Q { tree P tids records metadata with attrib := attrib } ↔
      Q "EDRM".toList attrib .null ∧
      (∀ text ∈ headTextsOf metadata, T (.text text.toList)) ∧
      (∀ tid ∈ tids, T (.text tid)) ∧
      ∀ r ∈ records.zipIdx 1, T (.text (Json.decimal r.2)) ∧ T r.1.id ∧
        ∀ f ∈ valued r.1.source ++ valued r.1.metadata,
          Q (xmlTag P f.1) [] (.text (P.str f.2)) := by
  rw [tree, Everywhere, everywhereAll_iff, List.forall_mem_append, List.forall_mem_cons,
    List.forall_mem_singleton, everywhere_head_iff metadata hfixed hnull,
    everywhere_fixed_part hfixed hnull (by decide), everywhere_fixed_part hfixed hnull (by decide),
    List.forall_mem_map, List.forall_mem_map]
  simp only [everywhere_custodian_iff hfixed hnull, everywhere_document_iff P hfixed hnull]

end

/-! ### The namespaces of the tree -/

theorem urisAll_eq_flatMap (elements : List Element) :
    Element.urisAll elements = elements.flatMap Element.uris := by
  induction elements with
  | nil => rfl
  | cons e elements ih => rw [Element.urisAll, ih, List.flatMap_cons]

theorem uris_leaf (tag : Text) (text : Json) :
    (leaf tag text).uris = ((namespaceOf tag).map Prod.fst).toList := by
  rw [leaf, Element.uris, Element.urisAll, List.append_nil]

theorem namespaceOf_fixed : ∀ tag ∈ fixedTags, namespaceOf tag.toList = none := by
  decide

theorem uris_fixed_leaf {tag : String} (htag : tag ∈ fixedTags) (text : Json) :
    (leaf tag.toList text).uris = [] := by
  rw [uris_leaf, namespaceOf_fixed tag htag]
  rfl

theorem uris_fixed_part {tag : String} (htag : tag ∈ fixedTags) (children : List Element) :
    (part tag children).uris = children.flatMap Element.uris := by
  rw [part, Element.uris, namespaceOf_fixed tag htag, urisAll_eq_flatMap]
  rfl

theorem uris_fieldElements (fields : List (Text × Json)) :
    (fieldElements P fields).flatMap Element.uris =
      (valued fields).filterMap fun f => (namespaceOf (xmlTag P f.1)).map Prod.fst := by
  rw [fieldElements, List.flatMap_map, List.filterMap_eq_flatMap_toList]
  simp only [uris_leaf]

/-- No tag of the elements is in braces. -/
abbrev Plain (tag : Text) (_ : List (Text × Text)) (_ : Json) : Prop := namespaceOf tag = none

mutual

theorem uris_eq_nil : ∀ e : Element, Everywhere Plain e → e.uris = []
  | ⟨tag, attrib, text, children⟩, h => by
    rw [Element.uris, urisAll_eq_nil children h.2, show namespaceOf tag = none from h.1]
    rfl

theorem urisAll_eq_nil : ∀ elements : List Element, EverywhereAll Plain elements →
    Element.urisAll elements = []
  | [], _ => rfl
  | e :: elements, h => by
    rw [Element.urisAll, uris_eq_nil e h.1, urisAll_eq_nil elements h.2, List.append_nil]

end

theorem plain_fixed : ∀ tag ∈ fixedTags, ∀ text : Json, Plain tag.toList [] text ↔ True :=
  fun tag htag _ => iff_true_intro (namespaceOf_fixed tag htag)

theorem uris_head : (head metadata).flatMap Element.uris = [] :=
  List.flatMap_eq_nil_iff.mpr fun e he =>
    uris_eq_nil e ((everywhere_head_iff metadata plain_fixed trivial).mpr (fun _ _ => trivial) e he)

theorem uris_custodian (tid : Text) : (custodian tid).uris = [] :=
  uris_eq_nil _ ((everywhere_custodian_iff plain_fixed trivial tid).mpr trivial)

theorem uris_document (r : ConsolidatedRecord shown) (idx : ℕ) :
    (document P r idx).uris = (valued r.source ++ valued r.metadata).filterMap fun f =>
      (namespaceOf (xmlTag P f.1)).map Prod.fst := by
  have hmetadata : (if r.metadata.isEmpty then [] else
      [part "Metadata" (fieldElements P r.metadata)]).flatMap Element.uris =
        (valued r.metadata).filterMap fun f => (namespaceOf (xmlTag P f.1)).map Prod.fst := by
    split_ifs with hempty
    · rw [List.isEmpty_iff.mp hempty]
      rfl
    · rw [List.flatMap_singleton, uris_fixed_part (by decide), uris_fieldElements]
  rw [document, uris_fixed_part (by decide), List.flatMap_cons, List.flatMap_cons,
    List.flatMap_append, uris_fieldElements, hmetadata, uris_fixed_leaf (by decide),
    uris_fixed_leaf (by decide), List.filterMap_append]
  rfl

/-- **The namespaces** of the tree are those of the tags for the keys. -/
theorem namespaces_tree :
    (tree P tids records metadata).namespaces = namespaces P records := by
  have hrecords : ((records.zipIdx 1).map fun r => document P r.1 r.2).flatMap Element.uris =
      records.flatMap fun r => (valued r.source ++ valued r.metadata).filterMap fun f =>
        (namespaceOf (xmlTag P f.1)).map Prod.fst := by
    rw [List.flatMap_map]
    simp only [uris_document]
    conv_rhs => rw [← List.zipIdx_map_fst 1 records, List.flatMap_map]
  have hcustodians : (tids.map custodian).flatMap Element.uris = [] := by
    rw [List.flatMap_map]
    exact List.flatMap_eq_nil_iff.mpr fun tid _ => uris_custodian tid
  rw [Element.namespaces, namespaces, tree, Element.uris, urisAll_eq_flatMap,
    namespaceOf_fixed "EDRM" (by decide), List.flatMap_append, List.flatMap_cons,
    List.flatMap_singleton, uris_head, uris_fixed_part (by decide), uris_fixed_part (by decide),
    hcustodians, hrecords]
  rfl

end Tree

/-! ### The attributes of the root -/

theorem isChar_of_isNameChar {c : Char} (h : Xml.isNameChar c = true) : Xml.isChar c = true := by
  simp only [Xml.isNameChar, Xml.isNameStartChar, Xml.isChar, Xml.inRanges, List.any_cons,
    List.any_nil, Bool.or_eq_true, Bool.and_eq_true, decide_eq_true_eq, Bool.or_false] at h ⊢
  omega

theorem all_isChar_of_isName {name : Text} (h : Xml.isName name = true) :
    name.all Xml.isChar = true :=
  List.all_eq_true.mpr fun c hc =>
    isChar_of_isNameChar (List.all_eq_true.mp (Bool.and_eq_true_iff.mp h).2 c hc)

theorem isNameChar_of_isDigit {c : Char} (h : c.isDigit = true) : Xml.isNameChar c = true := by
  rw [Char.isDigit_iff_toNat] at h
  have hrange : Xml.inRanges [(0x2d, 0x2e), (0x30, 0x39), (0xb7, 0xb7), (0x300, 0x36f),
      (0x203f, 0x2040)] c = true := by
    simp only [Xml.inRanges, List.any_cons, List.any_nil, Bool.or_eq_true, Bool.and_eq_true,
      decide_eq_true_eq, Bool.or_false]
    exact Or.inr (Or.inl h)
  rw [Xml.isNameChar, hrange, Bool.or_true]

/-- The attributes that are written for the namespaces, and the one that the tree has. -/
def attributes (ns : List Text) : List (Text × Text) :=
  declarations ns ++ [("xmlns".toList, "http://edrm.net/ns/v1".toList)]

theorem mem_declarations_iff {ns : List Text} {a : Text × Text} :
    a ∈ declarations ns ↔ ∃ i, ns[i]? = some a.2 ∧ a.1 = "xmlns:".toList ++ nsPrefix i := by
  rw [declarations, List.mem_mergeSort, List.mem_map]
  constructor
  · rintro ⟨⟨uri, i⟩, hmem, rfl⟩
    exact ⟨i, List.mem_zipIdx_iff_getElem?.mp hmem, rfl⟩
  · rintro ⟨i, huri, hname⟩
    refine ⟨(a.2, i), List.mem_zipIdx_iff_getElem?.mpr huri, ?_⟩
    rw [← hname]

theorem isName_declaration (i : ℕ) : Xml.isName ("xmlns:".toList ++ nsPrefix i) = true := by
  have hfront : ("xmlns:ns".toList).all Xml.isNameChar = true := by decide
  have hdigits : (Nat.toDigits 10 i).all Xml.isNameChar = true :=
    List.all_eq_true.mpr fun c hc => isNameChar_of_isDigit
      (Nat.isDigit_of_mem_toDigits (by decide) (by decide) hc)
  have htext : "xmlns:".toList ++ nsPrefix i = "xmlns:ns".toList ++ Nat.toDigits 10 i := rfl
  have hhead : ("xmlns:ns".toList ++ Nat.toDigits 10 i).head? = some 'x' := rfl
  rw [htext, Xml.isName, List.all_append, hfront, hdigits, hhead]
  decide

/-- The declarations have different names: no two prefixes have one number. -/
theorem nodup_attributes (ns : List Text) : ((attributes ns).map Prod.fst).Nodup := by
  have hinj {i j : ℕ} (h : "xmlns:".toList ++ nsPrefix i = "xmlns:".toList ++ nsPrefix j) :
      i = j := by
    have hdigits : Nat.toDigits 10 i = Nat.toDigits 10 j :=
      (List.cons.inj (List.cons.inj (List.append_cancel_left h)).2).2
    have hvalue := congrArg (fun s => Nat.ofDigitChars 10 s 0) hdigits
    simpa using hvalue
  have hdeclared : ((declarations ns).map Prod.fst).Nodup := by
    refine ((List.mergeSort_perm _ _).map Prod.fst).nodup_iff.mpr ?_
    have hnames : (ns.zipIdx.map fun uri => ("xmlns:".toList ++ nsPrefix uri.2, uri.1)).map
        Prod.fst = (List.range' 0 ns.length).map fun i => "xmlns:".toList ++ nsPrefix i := by
      rw [List.map_map, ← List.zipIdx_map_snd 0 ns, List.map_map]
      rfl
    rw [hnames]
    exact (List.nodup_map_iff_inj_on List.nodup_range').mpr fun i _ j _ h => hinj h
  rw [attributes, List.map_append, List.map_singleton]
  refine List.Nodup.append hdeclared (List.nodup_singleton _) ?_
  rintro name hname hxmlns
  obtain ⟨a, ha, rfl⟩ := List.mem_map.mp hname
  obtain ⟨i, -, hprefix⟩ := mem_declarations_iff.mp ha
  rw [List.mem_singleton.mp hxmlns] at hprefix
  exact absurd (congrArg List.length hprefix) (by simp)

theorem isName_of_mem_attributes {ns : List Text} :
    ∀ a ∈ attributes ns, Xml.isName a.1 = true := by
  intro a ha
  obtain hdeclared | hxmlns := List.mem_append.mp ha
  · obtain ⟨i, -, hname⟩ := mem_declarations_iff.mp hdeclared
    rw [hname]
    exact isName_declaration i
  · rw [List.mem_singleton.mp hxmlns]
    decide

/-- The attributes have characters of XML if the namespaces do. -/
theorem chars_attributes_iff (ns : List Text) :
    (∀ a ∈ attributes ns, a.1.all Xml.isChar = true ∧ a.2.all Xml.isChar = true) ↔
      ∀ uri ∈ ns, uri.all Xml.isChar = true := by
  constructor
  · intro h uri huri
    obtain ⟨i, hi⟩ := List.mem_iff_getElem?.mp huri
    exact (h ("xmlns:".toList ++ nsPrefix i, uri) (List.mem_append_left _
      (mem_declarations_iff.mpr ⟨i, hi, rfl⟩))).2
  · intro h a ha
    refine ⟨all_isChar_of_isName (isName_of_mem_attributes a ha), ?_⟩
    obtain hdeclared | hxmlns := List.mem_append.mp ha
    · obtain ⟨i, huri, -⟩ := mem_declarations_iff.mp hdeclared
      exact h a.2 (List.mem_of_getElem? huri)
    · rw [List.mem_singleton.mp hxmlns]
      decide

/-! ### The document as it is written -/

theorem writtenText_text (s : Text) : writtenText (.text s) = some s := by
  cases s with
  | nil => rfl
  | cons c s => rfl

theorem isName_fixed : ∀ tag ∈ fixedTags, Xml.isName tag.toList = true := by
  decide

theorem qname_fixed (ns : List Text) {tag : String} (h : tag ∈ fixedTags) :
    qname ns tag.toList = some tag.toList := by
  have hhead : ∀ tag ∈ fixedTags, tag.toList.head? ≠ some '{' := by decide
  unfold qname
  split
  · rename_i rest htag
    exact absurd (congrArg List.head? htag) (hhead tag h)
  · rfl

theorem isChar_decimal (idx : ℕ) : (Json.decimal idx).all Xml.isChar = true := by
  have htext : Json.decimal idx = Nat.toDigits 10 idx := if_neg (by omega)
  rw [htext]
  exact List.all_eq_true.mpr fun c hc => isChar_of_isNameChar (isNameChar_of_isDigit
    (Nat.isDigit_of_mem_toDigits (by decide) (by decide) hc))

theorem forall_zipIdx_iff {α : Type} {as : List α} {p : ℕ → Prop} {q : α → Prop}
    (hp : ∀ i, p i) : (∀ a ∈ as.zipIdx 1, p a.2 ∧ q a.1) ↔ ∀ a ∈ as, q a := by
  conv_rhs => rw [← List.zipIdx_map_fst 1 as, List.forall_mem_map]
  exact forall₂_congr fun a _ => and_iff_right (hp a.2)

section Written

variable (tids : List Text) (records : List (ConsolidatedRecord shown))
  (metadata : Option EDRMMetadata)

/-- The root of the document, where everything in it can be written. -/
def writtenRoot : Xml.Element :=
  resolved (namespaces P records)
    { tree P tids records metadata with attrib := attributes (namespaces P records) }

variable {tids records metadata}

/-- **The tree can be written** if the identifiers can, and the tags for the keys. -/
theorem written_eq_some_iff {root : Xml.Element} :
    (tree P tids records metadata).written = some root ↔
      (∀ r ∈ records, (writtenText r.id).isSome = true ∧
        ∀ f ∈ valued r.source ++ valued r.metadata, (elementName P records f.1).isSome = true) ∧
      writtenRoot P tids records metadata = root := by
  have hfixed : ∀ tag ∈ fixedTags, ∀ text, WriteOk (namespaces P records) tag.toList [] text ↔
      (writtenText text).isSome = true := fun tag htag text => by
    rw [WriteOk, qname_fixed _ htag]
    exact and_iff_right rfl
  have htext (s : Text) : (writtenText (.text s)).isSome = true := by
    rw [writtenText_text]
    rfl
  have htree := everywhere_tree_iff P tids records metadata hfixed rfl
    (attributes (namespaces P records))
  rw [Element.written, namespaces_tree]
  refine (resolve_eq_some_iff _ root).trans (and_congr_left fun _ => htree.trans ?_)
  have htop : WriteOk (namespaces P records) "EDRM".toList (attributes (namespaces P records))
      .null := ⟨by rw [qname_fixed _ (by decide)]; rfl, rfl⟩
  have hhead : ∀ text ∈ headTextsOf metadata, (writtenText (.text text.toList)).isSome = true :=
    fun text _ => htext text.toList
  have htids : ∀ tid ∈ tids, (writtenText (.text tid)).isSome = true := fun tid _ => htext tid
  rw [and_iff_right htop, and_iff_right hhead, and_iff_right htids]
  refine (forall_zipIdx_iff (p := fun i => (writtenText (.text (Json.decimal i))).isSome = true)
    (q := fun r : ConsolidatedRecord shown => (writtenText r.id).isSome = true ∧
      ∀ f ∈ valued r.source ++ valued r.metadata, WriteOk (namespaces P records) (xmlTag P f.1) []
        (.text (P.str f.2))) fun i => htext _).trans ?_
  exact forall₂_congr fun r _ => and_congr_right fun _ => forall₂_congr fun f _ =>
    and_iff_left (htext _)

theorem named_writtenRoot_iff : Xml.Named (writtenRoot P tids records metadata) ↔
    ∀ r ∈ records, ∀ f ∈ valued r.source ++ valued r.metadata,
      Xml.isName ((elementName P records f.1).getD []) = true := by
  have hnone (a : Text × Text) (h : a ∈ []) : Xml.isName a.1 = true := absurd h List.not_mem_nil
  have hfixed : ∀ tag ∈ fixedTags, ∀ text, NameOk (namespaces P records) tag.toList [] text ↔
      True := fun tag htag text => by
    rw [NameOk, qname_fixed _ htag]
    exact iff_true_intro ⟨isName_fixed tag htag, hnone, List.nodup_nil⟩
  have htop : NameOk (namespaces P records) "EDRM".toList (attributes (namespaces P records))
      .null := by
    refine ⟨?_, isName_of_mem_attributes, nodup_attributes _⟩
    rw [qname_fixed _ (by decide)]
    exact isName_fixed "EDRM" (by decide)
  rw [writtenRoot, named_resolved, everywhere_tree_iff P tids records metadata hfixed trivial,
    and_iff_right htop, and_iff_right fun _ _ => trivial, and_iff_right fun _ _ => trivial]
  refine (forall_zipIdx_iff (p := fun _ => True) (q := fun r : ConsolidatedRecord shown => True ∧
    ∀ f ∈ valued r.source ++ valued r.metadata, NameOk (namespaces P records) (xmlTag P f.1) []
      (.text (P.str f.2))) fun _ => trivial).trans ?_
  exact forall₂_congr fun r _ => (and_iff_right trivial).trans <| forall₂_congr fun f _ =>
    and_iff_left ⟨hnone, List.nodup_nil⟩

theorem chars_writtenRoot_iff : Xml.Chars (writtenRoot P tids records metadata) ↔
    (∀ uri ∈ namespaces P records, uri.all Xml.isChar = true) ∧
    (∀ text ∈ headTextsOf metadata, text.toList.all Xml.isChar = true) ∧
    (∀ tid ∈ tids, tid.all Xml.isChar = true) ∧
    ∀ r ∈ records, ((writtenText r.id).getD []).all Xml.isChar = true ∧
      ∀ f ∈ valued r.source ++ valued r.metadata,
        ((elementName P records f.1).getD []).all Xml.isChar = true ∧
          (P.str f.2).all Xml.isChar = true := by
  have hnone (a : Text × Text) (h : a ∈ []) :
      a.1.all Xml.isChar = true ∧ a.2.all Xml.isChar = true := absurd h List.not_mem_nil
  have hfixed : ∀ tag ∈ fixedTags, ∀ text, CharsOk (namespaces P records) tag.toList [] text ↔
      ((writtenText text).getD []).all Xml.isChar = true := fun tag htag text => by
    rw [CharsOk, qname_fixed _ htag]
    exact (and_iff_right (all_isChar_of_isName (isName_fixed tag htag))).trans
      (and_iff_right hnone)
  have htop : CharsOk (namespaces P records) "EDRM".toList (attributes (namespaces P records))
      .null ↔ ∀ uri ∈ namespaces P records, uri.all Xml.isChar = true := by
    rw [CharsOk, chars_attributes_iff, qname_fixed _ (by decide)]
    exact (and_iff_right (all_isChar_of_isName (isName_fixed "EDRM" (by decide)))).trans
      (and_iff_left rfl)
  rw [writtenRoot, chars_resolved, everywhere_tree_iff P tids records metadata hfixed rfl, htop]
  simp only [writtenText_text, Option.getD_some]
  refine and_congr_right fun _ => and_congr_right fun _ => and_congr_right fun _ => ?_
  refine (forall_zipIdx_iff (p := fun i => (Json.decimal i).all Xml.isChar = true)
    (q := fun r : ConsolidatedRecord shown =>
      ((writtenText r.id).getD []).all Xml.isChar = true ∧
        ∀ f ∈ valued r.source ++ valued r.metadata,
          CharsOk (namespaces P records) (xmlTag P f.1) [] (.text (P.str f.2)))
    isChar_decimal).trans ?_
  refine forall₂_congr fun r _ => and_congr_right fun _ => forall₂_congr fun f _ => ?_
  rw [CharsOk, writtenText_text]
  exact and_congr_right fun _ => and_iff_right hnone

/-! ### Reading the records back -/

theorem name_resolved (ns : List Text) : ∀ e : Element,
    (resolved ns e).name = (qname ns e.tag).getD []
  | ⟨_, _, _, _⟩ => rfl

theorem text_resolved (ns : List Text) : ∀ e : Element,
    (resolved ns e).text = (writtenText e.text).getD []
  | ⟨_, _, _, _⟩ => rfl

theorem children_resolved (ns : List Text) : ∀ e : Element,
    (resolved ns e).children = e.children.map (resolved ns)
  | ⟨_, _, _, children⟩ => resolvedAll_eq_map children

/-- An element as it is read back. -/
abbrev readBack (ns : List Text) (e : Element) : Xml.Element := Xml.normal (resolved ns e)

theorem children_readBack (ns : List Text) (e : Element) :
    (readBack ns e).children = e.children.map (readBack ns) := by
  rw [Xml.children_normal, children_resolved, List.map_map]
  rfl

theorem name_readBack_part (ns : List Text) {tag : String} (htag : tag ∈ fixedTags)
    (children : List Element) : (readBack ns (part tag children)).name = tag.toList := by
  rw [Xml.name_normal, name_resolved, part, qname_fixed ns htag]
  rfl

/-- The elements for the fields, as they are read back. -/
theorem readBack_leaf (ns : List Text) (tag s : Text) :
    (readBack ns (leaf tag (.text s))).name = (qname ns tag).getD [] ∧
      (readBack ns (leaf tag (.text s))).text = Xml.lineEnds s := by
  constructor
  · rw [Xml.name_normal, name_resolved, leaf]
  · rw [Xml.text_normal, text_resolved, leaf, writtenText_text, Option.getD_some]

/-- **The records** of the document that is read back. -/
theorem documents_readBack : (childrenNamed "Documents"
    (Xml.normal (writtenRoot P tids records metadata))).flatMap (childrenNamed "Document") =
      (records.zipIdx 1).map fun r =>
        readBack (namespaces P records) (document P r.1 r.2) := by
  obtain ⟨hcase, hrequest, hcustodians, hdocuments, hdocument⟩ : "Case" ∈ fixedTags ∧
      "Request" ∈ fixedTags ∧ "Custodians" ∈ fixedTags ∧ "Documents" ∈ fixedTags ∧
        "Document" ∈ fixedTags := by decide
  obtain ⟨cases, requests, hhead⟩ : ∃ cases requests,
      head metadata = [part "Case" cases, part "Request" requests] := by
    cases metadata with
    | none => exact ⟨_, _, rfl⟩
    | some m => exact ⟨_, _, rfl⟩
  have htop : childrenNamed "Documents" (Xml.normal (writtenRoot P tids records metadata)) =
      [readBack (namespaces P records)
        (part "Documents" ((records.zipIdx 1).map fun r => document P r.1 r.2))] := by
    rw [childrenNamed, writtenRoot, children_readBack, tree, hhead]
    simp only [List.map_cons, List.map_nil, List.cons_append, List.nil_append]
    rw [List.filter_cons_of_neg, List.filter_cons_of_neg, List.filter_cons_of_neg,
      List.filter_cons_of_pos, List.filter_nil]
    · rw [name_readBack_part _ hdocuments]
      decide
    · rw [name_readBack_part _ hcustodians]
      decide
    · rw [name_readBack_part _ hrequest]
      decide
    · rw [name_readBack_part _ hcase]
      decide
  rw [htop, List.flatMap_singleton, childrenNamed, children_readBack, part, List.map_map]
  refine List.filter_eq_self.mpr fun e he => decide_eq_true ?_
  obtain ⟨r, -, rfl⟩ := List.mem_map.mp he
  exact name_readBack_part _ hdocument _

/-- The fields that are read back have their texts if nothing in them is a carriage return. -/
theorem fieldsShown_of_fieldOk {fields : List (Text × Json)} {e : Xml.Element}
    (hfields : ∀ f ∈ valued fields, FieldOk P records f)
    (he : ∀ child ∈ fieldElements P fields,
      readBack (namespaces P records) child ∈ e.children) : FieldsShown P records fields e := by
  intro f hf
  obtain ⟨name, hname, -⟩ := (hfields f hf).name
  obtain ⟨hread, htext⟩ := readBack_leaf (namespaces P records) (xmlTag P f.1) (P.str f.2)
  refine ⟨_, he _ (List.mem_map_of_mem hf), ?_, ?_⟩
  · rw [hread, ← elementName, hname]
    rfl
  · rw [htext, Xml.lineEnds_of_not_mem (hfields f hf).lineEnds]

/-- **A record** whose fields can be written is read back. -/
theorem recordShown_readBack (h : XmlOk P records metadata) {r : ConsolidatedRecord shown}
    (hr : r ∈ records) (idx : ℕ) :
    RecordShown P records r (readBack (namespaces P records) (document P r idx)) where
  source := by
    refine fieldsShown_of_fieldOk P (fun f hf => h.fields r hr f (List.mem_append_left _ hf))
      fun child hchild => ?_
    rw [children_readBack]
    exact List.mem_map_of_mem (List.mem_cons_of_mem _ (List.mem_cons_of_mem _
      (List.mem_append_left _ hchild)))
  metadata hvalued := by
    have hnonempty : r.metadata.isEmpty = false := by
      refine Bool.eq_false_iff.mpr fun hempty => hvalued ?_
      rw [List.isEmpty_iff.mp hempty]
      rfl
    refine ⟨readBack (namespaces P records) (part "Metadata" (fieldElements P r.metadata)), ?_,
      fieldsShown_of_fieldOk P (fun f hf => h.fields r hr f (List.mem_append_right _ hf))
        fun child hchild => ?_⟩
    · refine List.mem_filter.mpr ⟨?_, decide_eq_true (name_readBack_part _ (by decide) _)⟩
      rw [children_readBack, document, hnonempty]
      exact List.mem_map_of_mem (List.mem_cons_of_mem _ (List.mem_cons_of_mem _
        (List.mem_append_right _ (List.mem_singleton_self _))))
    · rw [children_readBack]
      exact List.mem_map_of_mem hchild
  sourceNames := h.sourceNames r hr
  metadataNames := h.metadataNames r hr

/-! ### The condition -/

/-- The custodians can be sorted if every record has one. -/
theorem exists_custodians (h : ∀ r ∈ records, ∃ tid, r.custodian = some tid) :
    ∃ tids, custodians records = some tids := by
  obtain ⟨tids, htids⟩ := Runs.exists_mapM_eq_some (f := ConsolidatedRecord.custodian) fun r hr =>
    Option.isSome_iff_exists.mpr (h r hr)
  exact ⟨_, by rw [custodians, htids]; rfl⟩

/-- **The custodians** are the tenants of the records that are not empty. -/
theorem mem_custodians_iff (h : custodians records = some tids) :
    (∀ r ∈ records, ∃ tid, r.custodian = some tid) ∧
      ∀ tid, tid ∈ tids ↔ tid ≠ [] ∧ ∃ r ∈ records, r.custodian = some tid := by
  obtain ⟨found, hfound, rfl⟩ := Option.map_eq_some_iff.mp h
  have hall : ∀ r ∈ records, ∃ tid, r.custodian = some tid := fun r hr =>
    Option.isSome_iff_exists.mp (Runs.isSome_of_mapM hfound r hr)
  refine ⟨hall, fun tid => ?_⟩
  have hmap : records.mapM ConsolidatedRecord.custodian =
      some (records.map fun r => r.custodian.getD []) := by
    refine Runs.mapM_eq_some_map fun r hr => ?_
    obtain ⟨tid, htid⟩ := hall r hr
    rw [htid]
    rfl
  obtain rfl : found = records.map fun r => r.custodian.getD [] :=
    Option.some.inj (hfound.symm.trans hmap)
  rw [List.mem_mergeSort, List.mem_dedup, List.mem_filter, decide_eq_true_iff, and_comm,
    List.mem_map]
  refine and_congr_right fun _ => exists_congr fun r => and_congr_right fun hr => ?_
  obtain ⟨other, hother⟩ := hall r hr
  rw [hother, Option.getD_some, Option.some_inj]

/-- The tenants have characters of XML if the custodians do. -/
theorem chars_custodians_iff (h : custodians records = some tids) :
    (∀ tid ∈ tids, tid.all Xml.isChar = true) ↔
      ∀ r ∈ records, ∃ tid, r.custodian = some tid ∧ tid.all Xml.isChar = true := by
  obtain ⟨hall, hmem⟩ := mem_custodians_iff h
  constructor
  · intro hchars r hr
    obtain ⟨tid, htid⟩ := hall r hr
    refine ⟨tid, htid, ?_⟩
    by_cases hempty : tid = []
    · rw [hempty]
      rfl
    · exact hchars tid ((hmem tid).mpr ⟨hempty, r, hr, htid⟩)
  · intro hchars tid htid
    obtain ⟨-, r, hr, hcustodian⟩ := (hmem tid).mp htid
    obtain ⟨other, hother, hgood⟩ := hchars r hr
    rwa [Option.some.inj (hcustodian.symm.trans hother)]

/-- Every related thing of one list is one of the other. -/
theorem exists_related {α β : Type} {R : α → β → Prop} {as : List α} {bs : List β}
    (h : List.Forall₂ R as bs) : ∀ a ∈ as, ∃ b ∈ bs, R a b := by
  induction h with
  | nil => exact fun _ h => absurd h List.not_mem_nil
  | cons hab _ ih =>
    refine List.forall_mem_cons.mpr ⟨⟨_, List.mem_cons_self, hab⟩, fun a ha => ?_⟩
    obtain ⟨b, hb, hR⟩ := ih a ha
    exact ⟨b, List.mem_cons_of_mem _ hb, hR⟩

/-- A field that is shown, in the element of the record or in that of its metadata: an element
somewhere in the root has its name and its text. -/
theorem exists_shown {root : Xml.Element} (hshown : List.Forall₂ (RecordShown P records) records
      ((childrenNamed "Documents" root).flatMap (childrenNamed "Document")))
    {Q : Xml.Element → Prop} (hroot : Q root) (hQ : ∀ e, Q e → ∀ child ∈ e.children, Q child) :
    ∀ r ∈ records, ∀ f ∈ valued r.source ++ valued r.metadata,
      ∃ e, Q e ∧ elementName P records f.1 = some e.name ∧ e.text = P.str f.2 := by
  intro r hr f hf
  obtain ⟨document, hdocument, hrecord⟩ := exists_related hshown r hr
  obtain ⟨documents, hdocuments, hmem⟩ := List.mem_flatMap.mp hdocument
  have hin : Q document := hQ documents (hQ root hroot documents (List.mem_filter.mp hdocuments).1)
    document (List.mem_filter.mp hmem).1
  obtain hsource | hmetadata := List.mem_append.mp hf
  · obtain ⟨e, he, hname, htext⟩ := hrecord.source f hsource
    exact ⟨e, hQ document hin e he, hname, htext⟩
  · obtain ⟨part, hpart, hfields⟩ := hrecord.metadata (List.ne_nil_of_mem hmetadata)
    obtain ⟨e, he, hname, htext⟩ := hfields f hmetadata
    exact ⟨e, hQ part (hQ document hin part (List.mem_filter.mp hpart).1) e he, hname, htext⟩

/-- **Sound documents** are read back as the tree that was written. -/
theorem xmlOk_of_xmlSound (h : XmlSound P records metadata) : XmlOk P records metadata := by
  obtain ⟨text, root, hwrite, hread, hshown⟩ := h
  obtain ⟨tids, htids, hwrite⟩ := Option.bind_eq_some_iff.mp hwrite
  obtain ⟨written, hwritten, hwrite⟩ := Option.bind_eq_some_iff.mp hwrite
  obtain rfl := Option.some.inj hwrite
  obtain ⟨hok, rfl⟩ := (written_eq_some_iff P).mp hwritten
  -- the names are names, since every field is found in what was read
  have hnames : ∀ r ∈ records, ∀ f ∈ valued r.source ++ valued r.metadata,
      ∃ name, elementName P records f.1 = some name ∧ Xml.isName name = true := by
    intro r hr f hf
    obtain ⟨e, he, hname, -⟩ := exists_shown P hshown (Xml.named_of_readDocument hread)
      (fun e he child hchild => Xml.named_of_mem_children he hchild) r hr f hf
    exact ⟨e.name, hname, Xml.isName_of_named he⟩
  have hnamed : Xml.Named (writtenRoot P tids records metadata) := by
    refine (named_writtenRoot_iff P).mpr fun r hr f hf => ?_
    obtain ⟨name, hname, hisName⟩ := hnames r hr f hf
    rwa [hname, Option.getD_some]
  have hall := Xml.isChar_of_readDocument hread
  obtain ⟨hspaces, hhead, htenants, hrecords⟩ :=
    (chars_writtenRoot_iff P).mp ((Xml.all_writeDocument _).mp hall)
  obtain rfl : root = Xml.normal (writtenRoot P tids records metadata) :=
    Option.some.inj (hread.symm.trans (Xml.readDocument_writeDocument hnamed hall))
  -- and no text has a carriage return, since none that is read has
  have hreturns : ∀ r ∈ records, ∀ f ∈ valued r.source ++ valued r.metadata,
      '\r' ∉ P.str f.2 := by
    intro r hr f hf
    obtain ⟨e, ⟨e', rfl⟩, -, htext⟩ := exists_shown P hshown
      (Q := fun e => ∃ e', e = Xml.normal e') ⟨_, rfl⟩ (fun e he child hchild => by
        obtain ⟨e', rfl⟩ := he
        rw [Xml.children_normal] at hchild
        obtain ⟨child', -, rfl⟩ := List.mem_map.mp hchild
        exact ⟨child', rfl⟩) r hr f hf
    rw [← htext, Xml.text_normal]
    exact Xml.not_mem_lineEnds _
  have hrecord (r : ConsolidatedRecord shown) (hr : r ∈ records) :
      ∃ document, RecordShown P records r document := by
    obtain ⟨document, -, hdocument⟩ := exists_related hshown r hr
    exact ⟨document, hdocument⟩
  refine ⟨fun m hm text htext => ?_, fun r hr => ?_, (chars_custodians_iff htids).mp htenants,
    hspaces, fun r hr f hf => ⟨hnames r hr f hf, ((hrecords r hr).2 f hf).2, hreturns r hr f hf⟩,
    fun r hr => (hrecord r hr).choose_spec.sourceNames,
    fun r hr => (hrecord r hr).choose_spec.metadataNames⟩
  · rw [Option.mem_def.mp hm] at hhead
    exact hhead text htext
  · obtain ⟨text, htext⟩ := Option.isSome_iff_exists.mp (hok r hr).1
    refine ⟨text, htext, ?_⟩
    have hchars := (hrecords r hr).1
    rwa [htext, Option.getD_some] at hchars

/-- **Documents** that can be written are read back. -/
theorem xmlSound_of_xmlOk (h : XmlOk P records metadata) : XmlSound P records metadata := by
  obtain ⟨tids, htids⟩ := exists_custodians fun r hr =>
    (h.custodians r hr).imp fun _ htid => htid.1
  have hname : ∀ r ∈ records, ∀ f ∈ valued r.source ++ valued r.metadata,
      ∃ name, elementName P records f.1 = some name ∧ Xml.isName name = true :=
    fun r hr f hf => (h.fields r hr f hf).name
  have hwritten : (tree P tids records metadata).written =
      some (writtenRoot P tids records metadata) := by
    refine (written_eq_some_iff P).mpr ⟨fun r hr => ⟨?_, fun f hf => ?_⟩, rfl⟩
    · obtain ⟨text, htext, -⟩ := h.ids r hr
      exact Option.isSome_of_eq_some htext
    · obtain ⟨name, hname, -⟩ := hname r hr f hf
      exact Option.isSome_of_eq_some hname
  have hnamed : Xml.Named (writtenRoot P tids records metadata) := by
    refine (named_writtenRoot_iff P).mpr fun r hr f hf => ?_
    obtain ⟨name, hname, hisName⟩ := hname r hr f hf
    rwa [hname, Option.getD_some]
  have hhead : ∀ text ∈ headTextsOf metadata, text.toList.all Xml.isChar = true := by
    cases metadata with
    | none => decide
    | some m => exact h.head m rfl
  have hchars : Xml.Chars (writtenRoot P tids records metadata) := by
    refine (chars_writtenRoot_iff P).mpr
      ⟨h.namespaces, hhead, (chars_custodians_iff htids).mpr h.custodians, fun r hr => ⟨?_, ?_⟩⟩
    · obtain ⟨text, htext, hgood⟩ := h.ids r hr
      rwa [htext, Option.getD_some]
    · intro f hf
      obtain ⟨name, hname, hisName⟩ := hname r hr f hf
      rw [hname, Option.getD_some]
      exact ⟨all_isChar_of_isName hisName, (h.fields r hr f hf).chars⟩
  refine ⟨Xml.writeDocument (writtenRoot P tids records metadata), _, ?_,
    Xml.readDocument_writeDocument hnamed ((Xml.all_writeDocument _).mpr hchars), ?_⟩
  · rw [toEdrmXml, htids, Option.bind_eq_bind, Option.bind_some, hwritten]
    rfl
  · rw [documents_readBack]
    conv_lhs => rw [← List.zipIdx_map_fst 1 records]
    refine List.forall₂_map_left_iff.mpr (List.forall₂_map_right_iff.mpr
      (List.forall₂_same.mpr fun r hr => ?_))
    have hmem : r.1 ∈ records := by
      rw [← List.zipIdx_map_fst 1 records]
      exact List.mem_map_of_mem hr
    exact recordShown_readBack P h hmem r.2

end Written

/-! ### All formats -/

/-- The three formats lose nothing. -/
structure Sound (now : UtcTime) (records : List (ConsolidatedRecord shown))
    (metadata : Option EDRMMetadata) : Prop where
  jsonl : JsonlSound now records metadata
  xml : XmlSound P records metadata
  pdf : PdfSound P records

/-- **The formats lose nothing** if and only if the names in the header have no line break, the
identifiers, tenants and fields can be written as XML under different names, and the columns of the
table are empty but for the identifier and a tenant that is the same in the source. -/
theorem serialized_iff (now : UtcTime) (records : List (ConsolidatedRecord shown))
    (metadata : Option EDRMMetadata) :
    Sound P now records metadata ↔
      JsonlOk metadata ∧ XmlOk P records metadata ∧ PdfOk P records := by
  constructor
  · rintro ⟨hjsonl, hxml, hpdf⟩
    exact ⟨(jsonlSound_iff now records metadata).mp hjsonl, xmlOk_of_xmlSound P hxml,
      (pdfSound_iff P records).mp hpdf⟩
  · rintro ⟨hjsonl, hxml, hpdf⟩
    exact ⟨(jsonlSound_iff now records metadata).mpr hjsonl, xmlSound_of_xmlOk P hxml,
      (pdfSound_iff P records).mpr hpdf⟩

/-- Texts of ASCII. -/
def samplePython : Python where
  capitalize
    | [] => []
    | c :: word => c.toUpper :: word.map Char.toLower
  repr s := '\x27' :: (s ++ ['\x27'])

/-- An event of a provider. -/
def sampleRecord : ConsolidatedRecord id where
  id := .text "r1".toList
  source := [("tenant_id".toList, .text "acme".toList),
    ("provider".toList, .text "openai".toList)]
  tenantId := "acme".toList
  type := "lineage".toList
  metadata := []
  id_valid := trivial
  source_valid := ⟨by decide, trivial, trivial, trivial⟩
  metadata_valid := ⟨by decide, trivial⟩

/-- **A provider is not in its column.** -/
theorem not_serialized : ¬ ∃ now, Sound samplePython now [sampleRecord] none := by
  rintro ⟨now, h⟩
  have hrows := h.pdf sampleRecord rfl
  exact absurd hrows (by decide)

end AnonReq.Ediscovery.Formats
