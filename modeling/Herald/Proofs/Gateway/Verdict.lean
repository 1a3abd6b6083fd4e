import Herald.Gateway.Client
import Herald.Proofs.Json.Fields
import Herald.Proofs.Text.Utf8

/-!
# What the gateway's answers say

A complaint is a record in a record, parts of which may be left out. `Complaint.Told` says what a body has to
hold for that, and `SaysGone` which complaints are a verdict on the device. A message comes to the verdict
of its answer, and fails if there is none.

* `Complaint.ofText?_eq_some`: which complaint a text holds.
* `verdict_cases`: an answer is a success, or it says that the device is gone, or it does neither.
* `send_cases`: a message is answered, or not.
-/

namespace Herald.Gateway

open Source

/-! ## Complaints -/

namespace Complaint

variable {s : Source} {c : Complaint} {code : Option String}

/-- A detail and its code. -/
inductive Detail : Source → Option String → Prop
  | mk {s : Source} {field : Option Source} {code : Option String} :
    Record ["errorCode"] 0 s [field] → OptionalText field code → Detail s code

/-- What is said to be wrong. -/
inductive Error : Source → Complaint → Prop
  | mk {s : Source} {status message details : Option Source} {c : Complaint} :
    Record ["status", "message", "details"] 0 s [status, message, details] →
    OptionalText status c.status → OptionalText message c.message →
    OptionalList Detail details c.codes → Error s c

/-- A source holds a complaint. -/
inductive Of : Source → Complaint → Prop
  | mk {s error : Source} {c : Complaint} : Record ["error"] 1 s [some error] → Error error c → Of s c

/-- A text holds a complaint. -/
def Told (text : String) (c : Complaint) : Prop := ∃ s, ofOctets? (Utf8.encode text) = some s ∧ Of s c

theorem code?_eq_some (s : Source) (code : Option String) : code? s = some code ↔ Detail s code := by
  constructor
  · intro h
    obtain ⟨fields, hf, h⟩ := Option.bind_eq_some_iff.1 h
    split at h
    · exact .mk (fields?_eq_some.1 hf) (optionalText_iff.1 h)
    · cases h
  · rintro ⟨hr, ht⟩
    exact Option.bind_eq_some_iff.2 ⟨_, fields?_eq_some.2 hr, optionalText_iff.2 ht⟩

theorem ofError?_eq_some : ofError? s = some c ↔ Error s c := by
  constructor
  · intro h
    obtain ⟨fields, hf, h⟩ := Option.bind_eq_some_iff.1 h
    split at h
    · obtain ⟨status, hs, h⟩ := Option.bind_eq_some_iff.1 h
      obtain ⟨message, hm, h⟩ := Option.bind_eq_some_iff.1 h
      obtain ⟨codes, hc, h⟩ := Option.bind_eq_some_iff.1 h
      cases h
      exact .mk (fields?_eq_some.1 hf) (optionalText_iff.1 hs) (optionalText_iff.1 hm)
        ((optionalList_iff code?_eq_some).1 hc)
    · cases h
  · rintro ⟨hr, hs, hm, hc⟩
    refine Option.bind_eq_some_iff.2 ⟨_, fields?_eq_some.2 hr, ?_⟩
    simp [optionalText_iff.2 hs, optionalText_iff.2 hm, (optionalList_iff code?_eq_some).2 hc]

theorem ofSource?_eq_some : ofSource? s = some c ↔ Of s c := by
  constructor
  · intro h
    obtain ⟨fields, hf, h⟩ := Option.bind_eq_some_iff.1 h
    split at h
    · exact .mk (fields?_eq_some.1 hf) (ofError?_eq_some.1 h)
    · cases h
  · rintro ⟨hr, he⟩
    exact Option.bind_eq_some_iff.2 ⟨_, fields?_eq_some.2 hr, ofError?_eq_some.2 he⟩

theorem ofText?_eq_some {text : String} : ofText? text = some c ↔ Told text c := by
  simp only [ofText?, Option.bind_eq_some_iff, ofSource?_eq_some, Told]

/-- However a complaint is written, it is told. -/
theorem Of.told (h : Of s c) {text : String} (hs : s.Written text) : Told text c :=
  ⟨s, ofOctets?_written hs, h⟩

end Complaint

/-- A body that begins with an ASCII character is read as it was written, if nothing says otherwise. -/
theorem marked_encode {text : String} {first : Char} {rest : List Char} (h : text.toList = first :: rest)
    (hf : first.toNat < 0x80) : marked Utf8.text (Utf8.encode text) = text := by
  obtain ⟨a, ha, -, hcmp⟩ := Utf8.exists_octet (n := first.toNat) (by omega)
  have he : Utf8.encode text = a :: rest.flatMap Utf8.encodeChar := by
    rw [Utf8.encode, h, List.flatMap_cons, Utf8.encodeChar, if_pos hf, ha]
    rfl
  -- No mark begins with such an octet.
  have hmark : ∀ m : UInt8, 0x80 ≤ m.toNat → a ≠ m := fun m hm ham => by
    have := (hcmp m).2.1.1 ham
    omega
  have hplain : marked Utf8.text (Utf8.encode text) = Utf8.text (Utf8.encode text) := by
    rw [he]
    unfold marked
    split
    · next heq => exact absurd (List.cons.inj heq).1 (hmark 0xEF (by decide))
    · next heq => exact absurd (List.cons.inj heq).1 (hmark 0xFF (by decide))
    · next heq => exact absurd (List.cons.inj heq).1 (hmark 0xFE (by decide))
    · rfl
  rw [hplain, Utf8.text, Utf8.mend, Utf8.decode_encode, List.map_map]
  simp [Function.comp_def]

/-! ## Verdicts -/

variable {r : Http.Response} {transport : Http.Transport} {account : Account} {token : DeviceToken}
  {n : Notification}

/-- The status of an answer is of the 2xx class. -/
def Accepts (r : Http.Response) : Prop := 200 ≤ r.status.code ∧ r.status.code ≤ 299

/-- The body of an answer says that the device is gone: some detail has the code `UNREGISTERED`, whatever
the status of the answer is, or the complaint has the status `NOT_FOUND` and the answer has 404. -/
def SaysGone (r : Http.Response) : Prop :=
  ∃ c, Complaint.Told (bodyText r) c ∧
    (some "UNREGISTERED" ∈ c.codes ∨ c.status = some "NOT_FOUND" ∧ r.status.code = 404)

theorem isSuccess_iff : r.status.isSuccess = true ↔ Accepts r := by
  simp [Http.Status.isSuccess, Accepts, Nat.lt_succ_iff]

theorem isVerdict_iff {c : Complaint} : c.isVerdict r.status = true ↔
    some "UNREGISTERED" ∈ c.codes ∨ c.status = some "NOT_FOUND" ∧ r.status.code = 404 := by
  have hstatus : r.status = .notFound ↔ r.status.code = 404 :=
    ⟨fun h => h ▸ rfl, fun h => congrArg Http.Status.mk h⟩
  simp [Complaint.isVerdict, Complaint.isUnregistered, hstatus, and_comm]

/-- An answer is a success, or it says that the device is gone, or it does neither. -/
theorem verdict_cases (r : Http.Response) :
    Accepts r ∧ verdict r = .ok () ∨ ¬ Accepts r ∧ SaysGone r ∧ verdict r = .error .unregistered ∨
      ¬ Accepts r ∧ ¬ SaysGone r ∧ ∃ cause, verdict r = .error (.failed cause) := by
  by_cases hs : r.status.isSuccess = true
  · exact .inl ⟨isSuccess_iff.1 hs, if_pos hs⟩
  · have hno : ¬ Accepts r := hs ∘ isSuccess_iff.2
    refine .inr ?_
    simp only [verdict, if_neg hs]
    cases hc : Complaint.ofText? (bodyText r) with
    | none =>
      refine .inr ⟨hno, ?_, _, rfl⟩
      rintro ⟨c, ht, -⟩
      rw [Complaint.ofText?_eq_some.2 ht] at hc
      cases hc
    | some c =>
      have ht := Complaint.ofText?_eq_some.1 hc
      by_cases hv : c.isVerdict r.status = true
      · exact .inl ⟨hno, ⟨c, ht, isVerdict_iff.1 hv⟩, if_pos hv⟩
      · refine .inr ⟨hno, ?_, _, if_neg hv⟩
        rintro ⟨c', ht', hv'⟩
        rw [Complaint.ofText?_eq_some.2 ht', Option.some.injEq] at hc
        exact hv (isVerdict_iff.2 (hc ▸ hv'))

/-- A message can be put together for a web address, if there is a token of access and it can stand in a
header. -/
theorem exists_request {secret : String} (hs : account.accessToken = .ok secret)
    (hu : (Url.parse? account.address).isSome = true)
    (hh : Http.isHeaderText (Account.authorization secret) = true) (e : Envelope) :
    ∃ request, account.request e = .ok request := by
  obtain ⟨url, hu⟩ := Option.isSome_iff_exists.1 hu
  unfold Account.request
  rw [hs, hu]
  exact ⟨_, if_pos hh⟩

/-- What stands in the way of a message says nothing about the device. -/
theorem request_eq_error {e : Envelope} {error : DeliveryError} (h : account.request e = .error error) :
    ∃ cause, error = .failed cause := by
  unfold Account.request at h
  split at h
  · exact ⟨_, (Except.error.inj h).symm⟩
  · split at h
    · exact ⟨_, (Except.error.inj h).symm⟩
    · split at h
      · cases h
      · exact ⟨_, (Except.error.inj h).symm⟩

/-- A message is answered: the request that carries it can be put together, and an answer comes. -/
def Answers (transport : Http.Transport) (account : Account) (token : DeviceToken) (n : Notification)
    (r : Http.Response) : Prop :=
  ∃ request, account.request (.ofNotification token n) = .ok request ∧ transport request = .ok r

theorem Answers.eq {r' : Http.Response} (h : Answers transport account token n r)
    (h' : Answers transport account token n r') : r = r' := by
  obtain ⟨request, hq, ht⟩ := h
  obtain ⟨request', hq', ht'⟩ := h'
  cases hq.symm.trans hq'
  exact Except.ok.inj (ht.symm.trans ht')

/-- A message comes to what its answer says, or fails if there is none. -/
theorem send_cases (transport : Http.Transport) (account : Account) (token : DeviceToken)
    (n : Notification) :
    (∃ r, Answers transport account token n r ∧ send transport account token n = verdict r) ∨
      (∀ r, ¬ Answers transport account token n r) ∧
        ∃ cause, send transport account token n = .error (.failed cause) := by
  unfold send
  split
  · next error hq =>
    obtain ⟨cause, rfl⟩ := request_eq_error hq
    refine .inr ⟨?_, cause, rfl⟩
    rintro r ⟨request, hq', -⟩
    cases hq.symm.trans hq'
  · next request hq =>
    split
    · next f ht =>
      refine .inr ⟨?_, _, rfl⟩
      rintro r ⟨request', hq', ht'⟩
      cases hq.symm.trans hq'
      cases ht.symm.trans ht'
    · next r ht => exact .inl ⟨r, ⟨request, hq, ht⟩, rfl⟩

end Herald.Gateway
