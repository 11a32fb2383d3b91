import CodeAtlas.Rpc.Message

/-!
# Which values are messages, and which messages come back

`of_value_classifies` says which JSON values are read as a message, as which one, and which of
several objections to a value is reported. `of_value_to_value` reads envelopes: what comes back is
the normal form of the message that was written. The first rests on one lemma for each member that
is looked at (`read_id_cases`, `read_method_cases`, `read_error_cases`).
-/

namespace CodeAtlas.Json.Members

/-- A member that was added is found under its name, and the others as before. -/
theorem get_insert (name other : String) (value : Value) (members : Members) :
    get? name (insert other value members) =
      if name = other then some value else get? name members := by
  fun_induction insert other value members with
  | case1 => rfl
  | case2 kept rest =>
    rw [get?, get?]
    split <;> rfl
  | case3 => rfl
  | case4 head kept rest hne hlt ih =>
    rw [get?, ih, get?]
    split
    next heq => rw [if_neg (fun h => hne (h.symm.trans heq))]
    next => rfl

end CodeAtlas.Json.Members

namespace CodeAtlas.Rpc

open Json (Value Members)

/-! ## The members of an envelope -/

/-- The member of a name, where null counts as absent. -/
def given? (name : String) (members : Members) : Option Value :=
  (Members.get? name members).filter (· ≠ .null)

/-- A number is an id if it has 64 bits. -/
def RequestId.Fits : RequestId → Prop
  | .number n => Json.fitsSigned n = true
  | .text _ => True

/-- A value is an id: a number of 64 bits or a text. -/
def IsId (value : Value) : Prop := ∃ id : RequestId, id.Fits ∧ value = id.toValue

section Members

variable {name : String} {members : Members} {value : Value}

theorem given_eq_some (h : Members.get? name members = some value) (hnull : value ≠ .null) :
    given? name members = some value := by
  simp [given?, h, Option.filter, hnull]

theorem given_eq_none
    (h : Members.get? name members = none ∨ Members.get? name members = some .null) :
    given? name members = none := by
  rcases h with h | h <;> simp [given?, h, Option.filter]

variable (members)

theorem read_id_cases :
    (∃ id, readId? members = .ok id ∧ id.map RequestId.toValue = given? "id" members ∧
      ∀ value ∈ given? "id" members, IsId value) ∨
    ∃ value, readId? members = .error (.invalidId value) ∧ given? "id" members = some value ∧
      ¬ IsId value := by
  have hsome (id : RequestId) (h : given? "id" members = some id.toValue) (hfits : id.Fits) :
      ∀ value ∈ given? "id" members, IsId value := by
    rw [h]
    rintro _ ⟨⟩
    exact ⟨id, hfits, rfl⟩
  unfold readId?
  split
  next h =>
    have hgiven := given_eq_none (.inl h)
    exact .inl ⟨none, rfl, hgiven.symm, by simp [hgiven]⟩
  next h =>
    have hgiven := given_eq_none (.inr h)
    exact .inl ⟨none, rfl, hgiven.symm, by simp [hgiven]⟩
  next n h =>
    have hgiven := given_eq_some h (by simp)
    split
    next hfits => exact .inl ⟨some (.number n), rfl, hgiven.symm, hsome (.number n) hgiven hfits⟩
    next hfits =>
      refine .inr ⟨.int n, rfl, hgiven, ?_⟩
      rintro ⟨_ | _, hid, ⟨⟩⟩
      exact hfits hid
  next s h =>
    have hgiven := given_eq_some h (by simp)
    exact .inl ⟨some (.text s), rfl, hgiven.symm, hsome (.text s) hgiven trivial⟩
  next other hnull hint htext h =>
    refine .inr ⟨other, rfl, given_eq_some h hnull, ?_⟩
    rintro ⟨n | s, _, rfl⟩
    · exact hint n rfl
    · exact htext s rfl

theorem read_method_cases :
    (∃ method, readMethod? members = .ok method ∧
      method.map Value.str = Members.get? "method" members) ∨
    ∃ value, readMethod? members = .error .invalidMethod ∧
      Members.get? "method" members = some value ∧ ¬ ∃ text, value = .str text := by
  unfold readMethod?
  split
  next h => exact .inl ⟨none, rfl, h.symm⟩
  next method h => exact .inl ⟨some method, rfl, h.symm⟩
  next value hother h => exact .inr ⟨value, rfl, h, fun ⟨text, heq⟩ => hother text heq⟩

theorem read_error_cases :
    (∃ error, readError? members = .ok error ∧
      (given? "error" members).mapM ResponseError.decode = .ok error) ∨
    ∃ value cause, readError? members = .error (.invalidError (.shape cause)) ∧
      given? "error" members = some value ∧ ResponseError.decode value = .error cause := by
  unfold readError?
  split
  next h => exact .inl ⟨none, rfl, by rw [given_eq_none (.inl h)]; rfl⟩
  next h => exact .inl ⟨none, rfl, by rw [given_eq_none (.inr h)]; rfl⟩
  next value hnull h =>
    have hgiven := given_eq_some h hnull
    split
    next e hdecode => exact .inl ⟨some e, rfl, by rw [hgiven, Option.mapM_some, hdecode]; rfl⟩
    next cause hdecode => exact .inr ⟨value, cause, rfl, hgiven, hdecode⟩

end Members

/-! ## Classification -/

/-- What makes an object a message. -/
structure IsRoutable (members : Members) : Prop where
  id : ∀ value ∈ given? "id" members, IsId value
  method : ∀ value ∈ Members.get? "method" members, ∃ text, value = .str text
  addressed : Members.get? "method" members ≠ none ∨ given? "id" members ≠ none
  error : Members.get? "method" members = none →
    ∀ value ∈ given? "error" members, ∃ e, ResponseError.decode value = .ok e

/-- The message that the members of an object are: its kind goes by its method and its id. -/
inductive IsRead (members : Members) : Message → Prop where
  | request {id : RequestId} {method : String} :
      Members.get? "method" members = some (.str method) → given? "id" members = some id.toValue →
      IsRead members (.request id method (Members.get? "params" members))
  | notification {method : String} :
      Members.get? "method" members = some (.str method) → given? "id" members = none →
      IsRead members (.notification method (Members.get? "params" members))
  | response {id : RequestId} {error : Option ResponseError} :
      Members.get? "method" members = none → given? "id" members = some id.toValue →
      (given? "error" members).mapM ResponseError.decode = .ok error →
      IsRead members (.response id (Members.get? "result" members) error)

/-- What can be said against a value, one case for each condition that it fails. -/
inductive Objects : Value → MessageError → Prop where
  | notAnObject {value : Value} : (∀ members, value ≠ .obj members) → Objects value .notAnObject
  | invalidId {members : Members} {value : Value} :
      given? "id" members = some value → ¬ IsId value → Objects (.obj members) (.invalidId value)
  | invalidMethod {members : Members} {value : Value} :
      Members.get? "method" members = some value → (¬ ∃ text, value = .str text) →
      Objects (.obj members) .invalidMethod
  | unclassifiable {members : Members} :
      Members.get? "method" members = none → given? "id" members = none →
      Objects (.obj members) .unclassifiable
  | invalidError {members : Members} {value : Value} {cause : Json.DecodeError} :
      Members.get? "method" members = none → given? "error" members = some value →
      ResponseError.decode value = .error cause →
      Objects (.obj members) (.invalidError (.shape cause))

/-- The order in which objections are raised. -/
def MessageError.rank : MessageError → Nat
  | .notAnObject => 0
  | .invalidId _ => 1
  | .invalidMethod => 2
  | .unclassifiable => 3
  | .invalidError _ => 4

/-- An error is the first objection to a value. -/
def IsFirst (value : Value) (error : MessageError) : Prop :=
  Objects value error ∧ ∀ other, Objects value other → error.rank ≤ other.rank

variable {members : Members} {value : Value} {error other : MessageError}

theorem Objects.unique (h : Objects value error) (hother : Objects value other)
    (hrank : error.rank = other.rank) : error = other := by
  cases h with
  | notAnObject | invalidMethod | unclassifiable => cases hother <;> cases hrank; rfl
  | invalidId hgiven =>
    cases hother with
    | invalidId hother =>
      cases hgiven.symm.trans hother
      rfl
    | notAnObject | invalidMethod | unclassifiable | invalidError => cases hrank
  | invalidError _ hgiven hdecode =>
    cases hother with
    | invalidError _ hother hdecode' =>
      cases hgiven.symm.trans hother
      cases hdecode.symm.trans hdecode'
      rfl
    | notAnObject | invalidId | invalidMethod | unclassifiable => cases hrank

theorem IsFirst.unique (h : IsFirst value error) (hother : IsFirst value other) : error = other :=
  h.1.unique hother.1 (Nat.le_antisymm (h.2 _ hother.1) (hother.2 _ h.1))

/-- Conditions that an object meets are no objections to it: those that are left have at least the
rank `n`, if it meets the ones before. -/
theorem Objects.le_rank (n : Nat) (h : Objects (.obj members) error)
    (hid : n ≤ 1 ∨ ∀ value ∈ given? "id" members, IsId value)
    (hmethod : n ≤ 2 ∨ ∀ value ∈ Members.get? "method" members, ∃ text, value = .str text)
    (haddressed : n ≤ 3 ∨ Members.get? "method" members ≠ none ∨ given? "id" members ≠ none)
    (herror : n ≤ 4 ∨ (Members.get? "method" members = none →
      ∀ value ∈ given? "error" members, ∃ e, ResponseError.decode value = .ok e)) :
    n ≤ error.rank := by
  cases h with
  | notAnObject hvalue => exact absurd rfl (hvalue members)
  | invalidId hgiven hno => exact hid.resolve_right fun hid => hno (hid _ hgiven)
  | invalidMethod hvalue hno => exact hmethod.resolve_right fun hmethod => hno (hmethod _ hvalue)
  | unclassifiable hnone hgiven => exact haddressed.resolve_right (·.elim (· hnone) (· hgiven))
  | invalidError hnone hgiven hdecode =>
    refine herror.resolve_right fun herror => ?_
    obtain ⟨e, hok⟩ := herror hnone _ hgiven
    cases hok.symm.trans hdecode

theorem IsRoutable.not_objects (h : IsRoutable members) : ¬ Objects (.obj members) error := by
  intro hobjects
  have hrank := hobjects.le_rank 5 (.inr h.id) (.inr h.method) (.inr h.addressed) (.inr h.error)
  cases error <;> simp [MessageError.rank] at hrank

/-- A value is read as the message that it is, or the first objection to it is reported. -/
theorem of_value_cases (value : Value) :
    (∃ message members, Message.ofValue value = .ok message ∧ value = .obj members ∧
      IsRoutable members ∧ IsRead members message) ∨
    ∃ error, Message.ofValue value = .error error ∧ IsFirst value error := by
  cases value with
  | null | bool | num | str | arr =>
    exact .inr ⟨_, rfl, .notAnObject fun _ h => (by cases h), fun _ _ => Nat.zero_le _⟩
  | obj members =>
  simp only [Message.ofValue]
  rcases read_id_cases members with ⟨id, hid, hgiven, hids⟩ | ⟨value, hid, hgiven, hno⟩ <;>
    rw [hid]
  case inr =>
    exact .inr ⟨_, rfl, .invalidId hgiven hno, fun _ h =>
      h.le_rank 1 (.inl (by decide)) (.inl (by decide)) (.inl (by decide)) (.inl (by decide))⟩
  rcases read_method_cases members with ⟨method, hmethod, hvalue⟩ |
    ⟨value, hmethod, hvalue, hno⟩ <;> rw [hmethod]
  case inl.inr =>
    exact .inr ⟨_, rfl, .invalidMethod hvalue hno, fun _ h =>
      h.le_rank 2 (.inr hids) (.inl (by decide)) (.inl (by decide)) (.inl (by decide))⟩
  have hmethods : ∀ value ∈ Members.get? "method" members, ∃ text, value = .str text := by
    rw [← hvalue]
    cases method <;> simp
  cases method with
  | some method =>
    have hroutable : IsRoutable members :=
      ⟨hids, hmethods, .inl (by simp [← hvalue]), fun hnone => by simp [← hvalue] at hnone⟩
    cases id with
    | some id => exact .inl ⟨_, members, rfl, rfl, hroutable, .request hvalue.symm hgiven.symm⟩
    | none => exact .inl ⟨_, members, rfl, rfl, hroutable, .notification hvalue.symm hgiven.symm⟩
  | none =>
    cases id with
    | none =>
      exact .inr ⟨_, rfl, .unclassifiable hvalue.symm hgiven.symm, fun _ h =>
        h.le_rank 3 (.inr hids) (.inr hmethods) (.inl (by decide)) (.inl (by decide))⟩
    | some id =>
      have haddressed : given? "id" members ≠ none := by simp [← hgiven]
      rcases read_error_cases members with ⟨error, herror, hdecode⟩ |
        ⟨value, cause, herror, hraw, hdecode⟩ <;> simp only [herror, bind, Except.bind]
      · refine .inl ⟨_, members, rfl, rfl, ⟨hids, hmethods, .inr haddressed, ?_⟩,
          .response hvalue.symm hgiven.symm hdecode⟩
        intro _ value hraw
        rw [hraw, Option.mapM_some] at hdecode
        cases hvalue : ResponseError.decode value with
        | ok e => exact ⟨e, rfl⟩
        | error cause =>
          rw [hvalue] at hdecode
          cases hdecode
      · exact .inr ⟨_, rfl, .invalidError hvalue.symm hraw hdecode, fun _ h =>
          h.le_rank 4 (.inr hids) (.inr hmethods) (.inr (.inr haddressed)) (.inl (by decide))⟩

/-- A value is read as a message exactly if it is an object whose id, method and error are what they
have to be and that has a method or an id. The message is the one that the members are, and of all
objections to a value that is refused the first is reported. -/
theorem of_value_classifies (value : Value) :
    ((∃ message, Message.ofValue value = .ok message) ↔
      ∃ members, value = .obj members ∧ IsRoutable members) ∧
    (∀ message, Message.ofValue value = .ok message →
      ∃ members, value = .obj members ∧ IsRead members message) ∧
    ∀ error, Message.ofValue value = .error error ↔ IsFirst value error := by
  rcases of_value_cases value with ⟨message, members, hok, rfl, hroutable, hread⟩ |
    ⟨error, herror, hfirst⟩
  · refine ⟨⟨fun _ => ⟨members, rfl, hroutable⟩, fun _ => ⟨message, hok⟩⟩, fun other hother => ?_,
      fun error => ⟨fun herror => ?_, fun hfirst => absurd hfirst.1 hroutable.not_objects⟩⟩
    · cases hok.symm.trans hother
      exact ⟨members, rfl, hread⟩
    · cases hok.symm.trans herror
  · refine ⟨⟨?_, ?_⟩, fun message hok => ?_, fun other => ⟨fun hother => ?_, fun hother => ?_⟩⟩
    · rintro ⟨message, hok⟩
      cases hok.symm.trans herror
    · rintro ⟨members, rfl, hroutable⟩
      exact absurd hfirst.1 hroutable.not_objects
    · cases hok.symm.trans herror
    · cases herror.symm.trans hother
      exact hfirst
    · rw [herror, hfirst.unique hother]

/-! ## Envelopes -/

namespace ResponseError

/-- An error with null data read as none. -/
def normal (e : ResponseError) : ResponseError := { e with data := e.data.filter (· ≠ .null) }

theorem decode_to_value {e : ResponseError} (h : Json.fitsSigned e.code = true) :
    decode e.toValue = .ok e.normal := by
  obtain ⟨code, message, data⟩ := e
  have hcode : Json.Decoder.int64 (.int code) = .ok code := by
    simp only [Json.fitsSigned, Bool.and_eq_true, decide_eq_true_eq] at h
    exact if_pos (by omega)
  have hdata (data : Value) :
      Json.Decoder.option .any data = .ok ((some data).filter (· ≠ .null)) := by
    cases data <;> rfl
  have hvalue : toValue ⟨code, message, data⟩ = .obj ([("code", .int code)] ++
      (data.map fun data => ("data", data)).toList ++ [("message", .str message)]) := by
    cases data <;> rfl
  rw [hvalue]
  cases data <;>
    simp [decode, normal, Members.get?, Json.Fields.record, Json.Fields.read, Json.Fields.check,
      Json.Fields.required, Json.Fields.defaulted, Json.Fields.field, Seq.seq, Json.Fields.seq,
      Functor.map, Json.Fields.pure, Json.Decoder.text, hcode, hdata, bind, Except.bind, Except.map,
      pure, Except.pure]

end ResponseError

namespace Message

/-- Ids and error codes have 64 bits. -/
def Fits : Message → Prop
  | .request id _ _ => id.Fits
  | .notification _ _ => True
  | .response id _ error => id.Fits ∧ ∀ e ∈ error, Json.fitsSigned e.code = true

inductive Kind where
  | request
  | notification
  | response
deriving DecidableEq

def kind : Message → Kind
  | .request _ _ _ => .request
  | .notification _ _ => .notification
  | .response _ _ _ => .response

/-- What the caller who waits for a response sees. -/
def outcome? : Message → Option (Except ResponseError Value)
  | .response _ result error => some (outcome result error)
  | _ => none

end Message

theorem read_id_to_value {id : RequestId} (h : Members.get? "id" members = some id.toValue)
    (hfits : id.Fits) : readId? members = .ok (some id) := by
  cases id with
  | number n =>
    have hfits : Json.fitsSigned n = true := hfits
    simp [readId?, h, RequestId.toValue, hfits]
  | text s => simp [readId?, h, RequestId.toValue]

theorem read_error_to_value {e : ResponseError}
    (h : Members.get? "error" members = some e.toValue) (hfits : Json.fitsSigned e.code = true) :
    readError? members = .ok (some e.normal) := by
  have hdecode := ResponseError.decode_to_value hfits
  rw [ResponseError.toValue, Value.object] at h hdecode
  simp only [readError?, h, hdecode]

theorem to_value_members (message : Message) :
    ∃ members, message.toValue = .obj members ∧
      Members.get? "id" members = message.id?.map RequestId.toValue ∧
      Members.get? "method" members = message.method?.map .str ∧
      match message with
      | .request _ _ params | .notification _ params => Members.get? "params" members = params
      | .response _ result none => Members.get? "error" members = none ∧
          Members.get? "result" members = some (result.getD .null)
      | .response _ _ (some e) => Members.get? "error" members = some e.toValue ∧
          Members.get? "result" members = none := by
  cases message with
  | request id method params | notification method params =>
    refine ⟨_, rfl, ?_⟩
    cases params <;>
      simp [Members.ofList, Members.get_insert, Members.get?, Message.paramsMember, Message.id?,
        Message.method?]
  | response id result error =>
    cases error <;> refine ⟨_, rfl, ?_⟩ <;>
      simp [Members.ofList, Members.get_insert, Members.get?, Message.id?, Message.method?]

theorem of_value_envelope {message : Message} (h : message.Fits) :
    Message.ofValue message.toValue = .ok message.normal := by
  obtain ⟨members, hvalue, hid, hmethod, hrest⟩ := to_value_members message
  rw [hvalue]
  cases message with
  | request id method params =>
    simp only [Message.ofValue, read_id_to_value hid h, readMethod?, hmethod, hrest]
    rfl
  | notification method params =>
    simp only [Message.ofValue, readId?, hid, readMethod?, hmethod, hrest]
    rfl
  | response id result error =>
    cases error with
    | none =>
      simp only [Message.ofValue, read_id_to_value hid h.1, readMethod?, hmethod, readError?, hrest]
      rfl
    | some e =>
      simp only [Message.ofValue, read_id_to_value hid h.1, readMethod?, hmethod,
        read_error_to_value hrest.1 (h.2 e rfl), hrest]
      rfl

/-- The envelope of a message is read as the normal form of the message. A message in normal form is
its own, and the normal form has the kind, the id, the method and, less null data, the outcome of
the message; so the messages that come back as they are are those in normal form. -/
theorem of_value_to_value (message : Message) (h : message.Fits) :
    Message.ofValue message.toValue = .ok message.normal ∧
    message.normal.normal = message.normal ∧
    message.normal.kind = message.kind ∧
    message.normal.id? = message.id? ∧
    message.normal.method? = message.method? ∧
    message.normal.outcome? = message.outcome?.map (Except.mapError ResponseError.normal) ∧
    (Message.ofValue message.toValue = .ok message ↔ message.normal = message) := by
  have hread := of_value_envelope h
  refine ⟨hread, ?_⟩
  rw [hread, Except.ok.injEq]
  rcases message with ⟨id, method, params⟩ | ⟨method, params⟩ | ⟨id, result, _ | e⟩
  case response.some => exact ⟨by simp [Message.normal], rfl, rfl, rfl, rfl, .rfl⟩
  all_goals exact ⟨rfl, rfl, rfl, rfl, rfl, .rfl⟩

/-- A failure with a result and null data comes back without them. -/
theorem of_value_full_response :
    let message : Message :=
      .response (.number (-2 ^ 63)) (some .null) (some ⟨2 ^ 63 - 1, "", some .null⟩)
    message.Fits ∧ Message.ofValue message.toValue =
      .ok (.response (.number (-2 ^ 63)) none (some ⟨2 ^ 63 - 1, "", none⟩)) := by
  intro message
  have hfits : message.Fits := ⟨(by decide : Json.fitsSigned _ = true), by rintro _ ⟨⟩; decide⟩
  exact ⟨hfits, (of_value_to_value message hfits).1⟩

end CodeAtlas.Rpc
