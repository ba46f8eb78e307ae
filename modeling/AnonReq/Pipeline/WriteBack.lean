import AnonReq.Foundation.JsonFrame
import AnonReq.Pipeline.Extraction

/-!
# What writing back leaves alone

`_write_path` of `pipeline/tokenization.py`, for every node that `TextExtractor.extract` returns:
the places of a request that the extraction looks at (`places`) depend on the shape of the request
only, and different places hold different leaves.

* `extract_eq`: the nodes are those of the places, in order.
* `writeAll_frame`: what the writes change, and what they leave alone.
-/

namespace AnonReq.Pipeline

/-! ### The places of a request -/

/-- The items of a field, if it is a list. -/
def itemsOf : Option Json → List Json
  | some (.list items) => items
  | _ => []

/-- The places of a message: its content, and the arguments of its tool calls. -/
def placesOfMessage (i : ℕ) (message : Json) : List Place :=
  .content i :: (itemsOf (message.get (name "tool_calls"))).zipIdx.map fun call =>
    .arguments i call.2

/-- The places of a request that the extraction looks at, in this order. -/
def places (body : Json) : List Place :=
  (itemsOf (body.get (name "messages"))).zipIdx.flatMap fun message =>
    placesOfMessage message.2 message.1

/-- The node at a place, if there is one. -/
def Place.node (body : Json) (place : Place) : Option TextNode :=
  textNode place.path (place.role body) (body.readPath place.keys)

theorem readPath_index_of_mem {document item : Json} {k : Text} {i : ℕ} (keys : List Key)
    (h : (item, i) ∈ (itemsOf (document.get k)).zipIdx) :
    document.readPath (.name k :: .index i :: keys) = item.readPath keys := by
  have hitem := List.mem_zipIdx_iff_getElem?.mp h
  rw [Json.readPath, Json.child]
  cases hfield : document.get k with
  | none => simp [hfield, itemsOf] at hitem
  | some field =>
    cases field with
    | list items =>
      rw [hfield] at hitem
      rw [Option.bind_some, Json.readPath, Json.child, show items[i]? = some item from hitem,
        Option.bind_some]
    | _ => simp [hfield, itemsOf] at hitem

theorem role_of_mem {body message : Json} (place : Place)
    (h : (message, place.message) ∈ (itemsOf (body.get (name "messages"))).zipIdx) :
    place.role body = (message.get (name "role")).getD (.text (name "unknown")) := by
  rw [Place.role, readPath_index_of_mem _ h, Json.readPath_name]

theorem extractMessage_eq {body message : Json} {i : ℕ}
    (h : (message, i) ∈ (itemsOf (body.get (name "messages"))).zipIdx) :
    extractMessage i message = (placesOfMessage i message).filterMap (Place.node body) := by
  have hcontent : Place.node body (.content i) =
      textNode (contentPath i) ((message.get (name "role")).getD (.text (name "unknown")))
        (message.get (name "content")) := by
    rw [Place.node, role_of_mem (.content i) h, Place.keys, readPath_index_of_mem _ h,
      Json.readPath_name, Place.path]
  have harguments : ∀ call ∈ (itemsOf (message.get (name "tool_calls"))).zipIdx,
      Place.node body (.arguments i call.2) = textNode (argumentsPath i call.2)
        ((message.get (name "role")).getD (.text (name "unknown"))) (argumentsOf call.1) := by
    intro call hcall
    rw [Place.node, role_of_mem (.arguments i call.2) h, Place.keys, readPath_index_of_mem _ h,
      readPath_index_of_mem _ hcall, Place.path, Json.readPath, argumentsOf]
    exact congrArg _ (congrArg _ (funext fun function => Json.readPath_name function _))
  have hcalls : extractMessage i message =
      (textNode (contentPath i) ((message.get (name "role")).getD (.text (name "unknown")))
        (message.get (name "content"))).toList ++
      (itemsOf (message.get (name "tool_calls"))).zipIdx.filterMap fun call =>
        textNode (argumentsPath i call.2)
          ((message.get (name "role")).getD (.text (name "unknown"))) (argumentsOf call.1) := by
    rw [extractMessage]
    refine congrArg _ ?_
    split
    · rename_i calls hfield
      rw [hfield, itemsOf]
    · rename_i hfield
      rw [itemsOf]
      · rfl
      · exact hfield
  rw [hcalls, placesOfMessage, ← hcontent, List.filterMap_cons, List.filterMap_map,
    List.filterMap_congr fun call hcall => (harguments call hcall).symm]
  cases Place.node body (.content i) <;> rfl

/-- **The nodes of a request** are those of its places, in order. -/
theorem extract_eq (body : Json) : extract body = (places body).filterMap (Place.node body) := by
  have hmessages : extract body =
      (itemsOf (body.get (name "messages"))).zipIdx.flatMap fun message =>
        extractMessage message.2 message.1 := by
    rw [extract]
    split
    · rename_i messages hfield
      rw [hfield, itemsOf]
    · rename_i hfield
      rw [itemsOf]
      · rfl
      · exact hfield
  rw [hmessages, places, List.filterMap_flatMap]
  exact List.flatMap_congr fun message hmessage => extractMessage_eq hmessage

theorem itemsOf_get_shape (document : Json) (k : Text) :
    itemsOf (document.shape.get k) = (itemsOf (document.get k)).map Json.shape := by
  have hget : document.shape.get k = (document.get k).map Json.shape :=
    Json.child_shape document (.name k)
  rw [hget]
  cases document.get k with
  | none => rfl
  | some field =>
    cases field with
    | list items => rw [Option.map_some, Json.shape, itemsOf, itemsOf, Json.itemShapes_eq_map]
    | _ => rfl

/-- **The places depend on the shape** of the request only. -/
theorem places_shape (body : Json) : places body.shape = places body := by
  have hmessage : ∀ i message, placesOfMessage i (Json.shape message) =
      placesOfMessage i message := by
    intro i message
    rw [placesOfMessage, placesOfMessage, itemsOf_get_shape, List.zipIdx_map, List.map_map]
    rfl
  rw [places, places, itemsOf_get_shape, List.zipIdx_map, List.flatMap_map]
  exact List.flatMap_congr fun message _ => hmessage message.2 message.1

/-! ### The writes -/

/-- The keys that the path of a node is parsed to. -/
def keysOf (node : TextNode) : List Key := (parsePath node.path).getD []

theorem keysOf_eq {node : TextNode} {place : Place} (h : node.path = place.path) :
    keysOf node = place.keys := by
  rw [keysOf, h, place.parsePath_path, Option.getD_some]

/-- `_write_path` for one node after the other, `none` if it returns `False` for one. -/
def writeAll (body : Json) (writes : List (TextNode × Text)) : Option Json :=
  writes.foldlM (fun document write => writeText document write.1.path write.2) body

/-- The writes by keys. -/
def keyWrites (writes : List (TextNode × Text)) : List (List Key × Json) :=
  writes.map fun write => (keysOf write.1, .text write.2)

section

variable {body : Json} {writes : List (TextNode × Text)}

theorem writeAll_eq (hpaths : ∀ write ∈ writes, ∃ place : Place, write.1.path = place.path) :
    writeAll body writes = body.writePaths (keyWrites writes) := by
  induction writes generalizing body with
  | nil => rfl
  | cons write writes ih =>
    obtain ⟨place, hplace⟩ := hpaths write List.mem_cons_self
    have hwrite : writeText body write.1.path write.2 =
        body.writePath (keysOf write.1) (.text write.2) := by
      rw [writeText, hplace, place.parsePath_path, keysOf_eq hplace, Option.bind_some]
    rw [writeAll, keyWrites, List.map_cons, Json.writePaths, List.foldlM_cons, List.foldlM_cons,
      hwrite]
    exact congrArg _ (funext fun next =>
      ih fun other hother => hpaths other (List.mem_cons_of_mem write hother))

variable (hnodes : writes.map Prod.fst = extract body)

include hnodes

/-- A write is to a place, which holds the text of its node. -/
theorem exists_place_of_mem {write : TextNode × Text} (hwrite : write ∈ writes) :
    ∃ place : Place, write.1.path = place.path ∧ write.1.role = place.role body ∧
      body.readPath place.keys = some (.text write.1.value) ∧ Text.strip write.1.value ≠ [] :=
  mem_extract_iff.mp (hnodes ▸ List.mem_map_of_mem hwrite)

theorem readPath_keysOf {write : TextNode × Text} (hwrite : write ∈ writes) :
    keysOf write.1 ≠ [] ∧ body.readPath (keysOf write.1) = some (.text write.1.value) := by
  obtain ⟨place, hpath, -, hread, -⟩ := exists_place_of_mem hnodes hwrite
  rw [keysOf_eq hpath]
  exact ⟨place.keys_ne_nil, hread⟩

/-- **Nothing is aliased.** The writes are to places that go apart. -/
theorem forks_keyWrites : (keyWrites writes).Pairwise fun a b => Json.Forks a.1 b.1 := by
  have hapart := apart_extract body
  rw [← hnodes, List.pairwise_map] at hapart
  refine List.pairwise_map.mpr (hapart.imp fun {a b} h => ?_)
  obtain ⟨place, place', hne, ha, hb⟩ := h
  dsimp only
  rw [keysOf_eq ha, keysOf_eq hb]
  exact Place.forks_keys hne

/-- What branches off from the places of the nodes branches off from the writes. -/
theorem forks_of_mem_keyWrites {keys : List Key}
    (h : ∀ write ∈ writes, ∀ place : Place, write.1.path = place.path →
      Json.Forks place.keys keys) : ∀ write ∈ keyWrites writes, Json.Forks write.1 keys := by
  intro write hwrite
  obtain ⟨write, hmem, rfl⟩ := List.mem_map.mp hwrite
  obtain ⟨place, hpath, -⟩ := exists_place_of_mem hnodes hmem
  dsimp only
  rw [keysOf_eq hpath]
  exact h write hmem place hpath

section

variable {written : Json} (hframe : ∀ keys, (∀ write ∈ keyWrites writes,
  Json.Forks write.1 keys) → written.readPath keys = body.readPath keys)

include hframe

/-- The roles are not written to. -/
theorem role_of_writes (place : Place) : place.role written = place.role body := by
  have hcontent : Key.name (name "content") ≠ .name (name "role") := by decide
  have hcalls : Key.name (name "tool_calls") ≠ .name (name "role") := by decide
  rw [Place.role, Place.role,
    hframe _ (forks_of_mem_keyWrites hnodes fun write _ place' _ => ?_)]
  cases place' with
  | content i => exact Or.inr (Or.inr (Or.inl hcontent))
  | arguments i j => exact Or.inr (Or.inr (Or.inl hcalls))

/-- Where no node was, there is none afterwards. -/
theorem node_of_writes {place : Place} (hnone : place.node body = none) :
    place.node written = none := by
  have hread : written.readPath place.keys = body.readPath place.keys := by
    refine hframe _ (forks_of_mem_keyWrites hnodes fun write hwrite place' hpath => ?_)
    refine Place.forks_keys ?_
    rintro rfl
    -- a node at the place would be found there
    obtain ⟨other, hother, -, hvalue, hblank⟩ := exists_place_of_mem hnodes hwrite
    have hkeys : other.keys = place'.keys := by rw [← keysOf_eq hother, ← keysOf_eq hpath]
    rw [hkeys] at hvalue
    have hnode : place'.node body = some ⟨place'.path, place'.role body, write.1.value⟩ :=
      textNode_eq_some_iff.mpr ⟨rfl, rfl, hvalue, hblank⟩
    exact absurd (hnone.symm.trans hnode) (Option.some_ne_none _).symm
  rw [Place.node, hread, role_of_writes hnodes hframe, ← Place.node, hnone]

end

end

/-- Two lists made from one list, of which the first one is paired with something. -/
theorem filterMap_eq_filterMap {α β γ δ : Type*} {f : α → Option β} {g : α → Option δ}
    {h : β × γ → Option δ} {xs : List α} {ys : List (β × γ)}
    (hys : ys.map Prod.fst = xs.filterMap f) (hnone : ∀ x ∈ xs, f x = none → g x = none)
    (hsome : ∀ x ∈ xs, ∀ y ∈ ys, f x = some y.1 → g x = h y) :
    xs.filterMap g = ys.filterMap h := by
  induction xs generalizing ys with
  | nil =>
    obtain rfl := List.map_eq_nil_iff.mp hys
    rfl
  | cons x xs ih =>
    have hlater : ∀ x' ∈ xs, f x' = none → g x' = none := fun x' hx' =>
      hnone x' (List.mem_cons_of_mem x hx')
    cases hx : f x with
    | none =>
      rw [List.filterMap_cons_none hx] at hys
      rw [List.filterMap_cons_none (hnone x List.mem_cons_self hx)]
      exact ih hys hlater fun x' hx' => hsome x' (List.mem_cons_of_mem x hx')
    | some b =>
      rw [List.filterMap_cons_some hx] at hys
      obtain ⟨y, ys, rfl⟩ := List.exists_cons_of_ne_nil fun hnil : ys = [] => by
        rw [hnil] at hys
        exact absurd hys (List.cons_ne_nil _ _).symm
      obtain ⟨rfl, htail⟩ := List.cons.inj hys
      rw [List.filterMap_cons, List.filterMap_cons,
        hsome x List.mem_cons_self y List.mem_cons_self hx,
        ih htail hlater fun x' hx' y' hy' =>
          hsome x' (List.mem_cons_of_mem x hx') y' (List.mem_cons_of_mem y hy')]

/-- **Write-back frame.** Every node can be written to. After that its place has its new text, every
other leaf and the shape of the request are as they were, the order of the writes makes no
difference, and the nodes of the written request are the old ones with the new texts, without those
that are blank now. -/
theorem writeAll_frame {body : Json} {writes : List (TextNode × Text)}
    (hnodes : writes.map Prod.fst = extract body) :
    ∃ written, writeAll body writes = some written ∧
      (∀ detected : TextNode × Text → Bool,
        writeBack body (writes.map fun write => (write.1, write.2, detected write)) =
          some written) ∧
      (∀ write ∈ writes, ∃ keys, parsePath write.1.path = some keys ∧
        body.readPath keys = some (.text write.1.value) ∧
          written.readPath keys = some (.text write.2)) ∧
      (∀ keys leaf, body.readPath keys = some leaf → leaf.IsLeaf →
        (∀ write ∈ writes, parsePath write.1.path ≠ some keys) →
          written.readPath keys = some leaf) ∧
      written.shape = body.shape ∧
      (∀ writes' : List (TextNode × Text), writes'.Perm writes →
        writeAll body writes' = some written) ∧
      extract written =
        writes.filterMap fun write =>
          textNode write.1.path write.1.role (some (.text write.2)) := by
  have hpaths : ∀ write ∈ writes, ∃ place : Place, write.1.path = place.path :=
    fun write hwrite => by
      obtain ⟨place, hpath, -⟩ := exists_place_of_mem hnodes hwrite
      exact ⟨place, hpath⟩
  have hforks := forks_keyWrites hnodes
  have hread : ∀ write ∈ keyWrites writes, ∃ value,
      write.1 ≠ [] ∧ body.readPath write.1 = some (.text value) ∧ write.2.IsLeaf := by
    intro write hwrite
    obtain ⟨write, hmem, rfl⟩ := List.mem_map.mp hwrite
    obtain ⟨hne, hread⟩ := readPath_keysOf hnodes hmem
    exact ⟨_, hne, hread, trivial⟩
  obtain ⟨written, hwritten, hvalues, hframe⟩ := Json.exists_writePaths hforks
    fun write hwrite => by
      obtain ⟨value, hne, hvalue, -⟩ := hread write hwrite
      exact ⟨hne, Option.isSome_of_eq_some hvalue⟩
  have hshape : written.shape = body.shape :=
    Json.shape_writePaths hforks (fun write hwrite => by
      obtain ⟨value, -, hvalue, hleaf⟩ := hread write hwrite
      exact ⟨_, hvalue, (Json.shape_of_isLeaf hleaf).symm⟩) hwritten
  refine ⟨written, (writeAll_eq hpaths).trans hwritten, fun detected => ?_,
    fun write hwrite => ?_, fun keys leaf hleaf hisLeaf hkeys => ?_, hshape,
    fun writes' hperm => ?_, ?_⟩
  · refine writeBack_of_writePaths keysOf (fun node hnode => ?_) ?_
    · obtain ⟨write, hwrite, rfl⟩ := List.mem_map.mp hnode
      obtain ⟨place, hpath⟩ := hpaths write hwrite
      dsimp only
      rw [keysOf_eq hpath, hpath, place.parsePath_path]
    · rw [List.map_map]
      exact hwritten
  · obtain ⟨place, hpath⟩ := hpaths write hwrite
    obtain ⟨-, hold⟩ := readPath_keysOf hnodes hwrite
    have hnew := hvalues _ (List.mem_map_of_mem (f := fun write : TextNode × Text =>
      (keysOf write.1, Json.text write.2)) hwrite)
    rw [keysOf_eq hpath] at hold hnew
    exact ⟨place.keys, by rw [hpath, place.parsePath_path], hold, hnew⟩
  · -- a leaf is at no place below another leaf, so its path parts from every written one
    rw [hframe keys fun write hwrite => ?_, hleaf]
    obtain ⟨write, hmem, rfl⟩ := List.mem_map.mp hwrite
    obtain ⟨place, hpath⟩ := hpaths write hmem
    obtain ⟨-, hold⟩ := readPath_keysOf hnodes hmem
    refine Json.forks_of_leaves hold trivial hleaf hisLeaf fun heq => hkeys write hmem ?_
    rw [← heq, hpath, place.parsePath_path, keysOf_eq hpath]
  · have hpaths' : ∀ write ∈ writes', ∃ place : Place, write.1.path = place.path :=
      fun write hwrite => hpaths write (hperm.mem_iff.mp hwrite)
    rw [writeAll_eq hpaths', ← hwritten]
    refine (Json.writePaths_perm (hperm.symm.map _) hforks fun write hwrite => ?_).symm
    obtain ⟨value, hne, hvalue, -⟩ := hread write hwrite
    exact ⟨hne, Option.isSome_of_eq_some hvalue⟩
  · -- the places depend on the shape alone
    rw [extract_eq, ← places_shape, hshape, places_shape]
    refine filterMap_eq_filterMap (hnodes.trans (extract_eq body))
      (fun place _ => node_of_writes hnodes hframe) fun place _ write hwrite hnode => ?_
    obtain ⟨hpath, hrole, -, -⟩ := textNode_eq_some_iff.mp hnode
    have hnew := hvalues _ (List.mem_map_of_mem (f := fun write : TextNode × Text =>
      (keysOf write.1, Json.text write.2)) hwrite)
    rw [keysOf_eq hpath] at hnew
    rw [Place.node, hnew, role_of_writes hnodes hframe, hpath, hrole]

/-- The text of a message is replaced, and found again. -/
theorem writeAll_frame_sample :
    ∃ written, writeAll sampleTextRequest.modelDump
        [(⟨contentPath 0, .text (name "user"), name "Call 555-0100"⟩, name "Call [PHONE_0]")] =
          some written ∧
      extract written = [⟨contentPath 0, .text (name "user"), name "Call [PHONE_0]"⟩] := by
  obtain ⟨written, hwritten, -, -, -, -, -, hextract⟩ := @writeAll_frame sampleTextRequest.modelDump
    [(⟨contentPath 0, .text (name "user"), name "Call 555-0100"⟩, name "Call [PHONE_0]")] rfl
  exact ⟨written, hwritten, hextract⟩

end AnonReq.Pipeline
