import Herald.Notification.Codec
import Herald.Proofs.Json.Canonical
import Herald.Proofs.Json.Record

/-!
# Notifications come back

What was written is read from its text, if its arguments hold no real number and the text is not
nested too deeply.

* `StoredNotification.decode?_encode`: an entry of a history comes back from its text.
* `Notification.decode?_encode`: a notification comes back but for what its text leaves out.
-/

namespace Herald

namespace Category

theorem ofSource?_name (c : Category) : ofSource? (Json.text c.name).toSource = some c :=
  ofName?_name c

end Category

namespace Arguments

/-- Arguments come back from the field in which they are written. -/
theorem ofField?_toJson {a : Arguments} (hp : a.toJson.isPlain = true)
    (hd : a.toJson.depth ≤ Source.maxDepth - 1) : ofField? (some a.toJson.toSource) = some a := by
  have e : ofField? (some a.toJson.toSource) =
      if a.toJson.toSource.depth ≤ Source.maxDepth - 1 then a.toJson.toSource.json?.bind ofJson?
      else none := rfl
  rw [e, Json.depth_toSource, if_pos hd, Json.json?_toSource a.toJson hp a.canonical]
  exact dif_pos a.canonical

end Arguments

namespace StoredNotification

/-- The arguments hold no real number, and the text is not nested too deeply to be read. -/
def Readable (n : StoredNotification) : Prop :=
  n.arguments.toJson.isPlain = true ∧ n.toJson.depth ≤ Source.maxDepth

instance (n : StoredNotification) : Decidable n.Readable := inferInstanceAs (Decidable (_ ∧ _))

theorem isPlain_toJson (n : StoredNotification) :
    n.toJson.isPlain = n.arguments.toJson.isPlain := by
  simp [toJson, Json.ofId, Json.isPlain, Json.allMembersPlain]

theorem depth_toJson (n : StoredNotification) :
    n.toJson.depth = n.arguments.toJson.depth + 1 := by
  simp [toJson, Json.ofId, Json.depth, Json.depthOfMembers]

theorem ofSource?_toSource {n : StoredNotification} (h : n.Readable) :
    ofSource? n.toJson.toSource = some n := by
  obtain ⟨hp, hd⟩ := h
  rw [depth_toJson] at hd
  have e := Source.fields?_object [("timestamp", Json.ofId n.timestamp),
    ("from", Json.ofId n.sender), ("category", .text n.category.name),
    ("arguments", n.arguments.toJson)] (by simp) 3
  have ha := Arguments.ofField?_toJson hp (Nat.le_sub_one_of_lt hd)
  simp only [List.map_cons, List.map_nil] at e
  simp [ofSource?, toJson, e, Source.id?_ofId, Category.ofSource?_name, ha]

/-- An entry comes back from its text. -/
theorem decode?_encode {n : StoredNotification} (h : n.Readable) : decode? n.encode = some n := by
  rw [decode?, encode, Source.ofText?_compact (n.isPlain_toJson.trans h.1), Option.bind_some,
    ofSource?_toSource h]

end StoredNotification

namespace Alert

theorem ofSource?_toSource (a : Alert) : ofSource? a.toJson.toSource = some a := by
  have e := Source.fields?_object [("body-loc-key", .text a.key),
    ("body-loc-args", .list (a.arguments.map .text))] (by simp) 2
  have ht (s : String) : Source.text? (Json.text s).toSource = some s := rfl
  simp only [List.map_cons, List.map_nil] at e
  simp [ofSource?, toJson, e, ht, Source.list?_toSource ht]

end Alert

namespace Notification

/-- The arguments hold no real number, and the text is not nested too deeply to be read. -/
def Readable (n : Notification) : Prop :=
  n.arguments.toJson.isPlain = true ∧ n.toJson.depth ≤ Source.maxDepth

instance (n : Notification) : Decidable n.Readable := inferInstanceAs (Decidable (_ ∧ _))

theorem isPlain_toJson (n : Notification) : n.toJson.isPlain = n.arguments.toJson.isPlain := by
  simp [toJson, Alert.toJson, Json.isPlain, Json.allMembersPlain,
    Json.allPlain_map (f := Json.text) fun _ => rfl]

theorem depth_toJson (n : Notification) :
    n.toJson.depth = max 2 n.arguments.toJson.depth + 1 := by
  simp [toJson, Alert.toJson, Json.depth, Json.depthOfMembers,
    Json.depthOfAll_map (f := Json.text) fun _ => rfl]

theorem ofSource?_toSource {n : Notification} (h : n.Readable) :
    ofSource? n.toJson.toSource = some { n with collapseKey := none, origin := none } := by
  obtain ⟨hp, hd⟩ := h
  rw [depth_toJson] at hd
  have e := Source.fields?_object [("category", .text n.category.name), ("alert", n.alert.toJson),
    ("arguments", n.arguments.toJson)] (by simp) 2
  have ha := Arguments.ofField?_toJson hp (by omega)
  simp only [List.map_cons, List.map_nil] at e
  simp [ofSource?, toJson, e, Category.ofSource?_name, Alert.ofSource?_toSource, ha]

/-- A notification comes back from its text but for its collapse key and its origin. -/
theorem decode?_encode {n : Notification} (h : n.Readable) :
    decode? n.encode = some { n with collapseKey := none, origin := none } := by
  rw [decode?, encode, Source.ofText?_compact (n.isPlain_toJson.trans h.1), Option.bind_some,
    ofSource?_toSource h]

end Notification

end Herald
