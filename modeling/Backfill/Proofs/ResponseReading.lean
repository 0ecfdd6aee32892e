import Backfill.Proofs.RecordReading

/-!
# A response is read as it is found

A single response is read straight from its text.  This comes to the same as reading the text as one
value and looking for a response in that, as is done for a batch.

## Main results

* `RpcError.finds_read`, `Response.finds_read` — the readers of the two records.
* `Response.parse_eq_ok_iff` — **a text that denotes a value is read as the response that is found
  in the value.**
-/

namespace Backfill

open Json

variable {levels : Nat} {items : List Json} {fields : List (String × Json)}
  {text rest : List Glyph}

theorem Json.field?_eq_map_join {α : Type} (find : Json → Option α) (found : Option Json) :
    field? find found = (found.mapM (optional? find)).map Option.join := by
  cases found with
  | none => rfl
  | some value => cases h : optional? find value <;> simp [field?, h]

theorem Json.finds_arranged :
    Finds levels (optional (via levels fun value => some value.canonical))
      (optional? fun value => some value.canonical) :=
  finds_optional (finds_via _)

namespace RpcError

theorem ofFields?_eq (code message data : Option Json) :
    ofFields? code message data =
      (code.bind code?).bind fun code => (message.bind string?).bind fun message =>
        (data.mapM (optional? fun value => some value.canonical)).bind fun data =>
          some ⟨code, message, data.join⟩ := by
  rw [ofFields?, field?_eq_map_join]
  cases code <;> cases message <;>
    simp only [Option.pure_def, Option.bind_eq_bind, Option.bind_map, Function.comp_def,
      Option.bind_none, Option.bind_some, Option.bind_fun_none]

/-- How the fields of an error are found. -/
def finders : Finders [Int, String, Option Json] :=
  (code?, string?, optional? fun value => some value.canonical, ())

theorem find?_schema (levels : Nat) (value : Json) :
    ofJson? value = (schema levels).find? ofGathered? finders value := by
  cases value with
  | arr items =>
    rw [ofJson?, ofFields?_eq]
    simp only [Schema.find?, schema, finders, Schema.atPositions, if_true]
    -- More items than fields are refused, however many of them could be read.
    by_cases hlength : items.length ≤ 3
    · simp only [hlength, if_true]
      cases items[0]?.bind code? with
      | none => rfl
      | some code =>
        cases items[1]?.bind string? with
        | none => rfl
        | some message => simp [Option.bind_assoc, ofGathered?]
    · simp [hlength]
  | obj fields =>
    rw [ofJson?]
    simp only [ofFields?_eq, Schema.find?, schema, finders, Schema.atNames]
    cases only? fields "code" with
    | none => rfl
    | some code =>
      cases only? fields "message" with
      | none => simp
      | some message =>
        cases only? fields "data" with
        | none => simp
        | some data =>
          cases code <;> cases message <;>
            simp [Option.bind_assoc, Option.bind_map, ofGathered?]
  | null | bool | int | real | str => rfl

/-- **An error is read as it is found.** -/
theorem finds_read : Finds levels (read levels) ofJson? :=
  Schema.finds_read (fun _ => .field finds_signed (.field finds_text (.field finds_arranged .done)))
    (fun _ => by simp [Schema.names]) find?_schema levels

end RpcError

theorem RequestId.finds_optional :
    Finds levels (optional (via levels RequestId.ofJson?)) (optional? RequestId.ofJson?) :=
  Json.finds_optional (finds_via _)

namespace Response

theorem ofFields?_eq (jsonrpc id result error : Option Json) :
    ofFields? jsonrpc id result error =
      (jsonrpc.mapM (optional? string?)).bind fun jsonrpc =>
        (id.mapM (optional? RequestId.ofJson?)).bind fun id =>
          (result.mapM (optional? fun value => some value.canonical)).bind fun result =>
            (error.mapM (optional? RpcError.ofJson?)).bind fun error =>
              some (ofGathered (jsonrpc, id, result, error, ())) := by
  simp only [ofFields?, field?_eq_map_join]
  simp only [Option.pure_def, Option.bind_eq_bind, Option.bind_map, Function.comp_def, ofGathered]

/-- How the fields of a response are found. -/
def finders : Finders [Option String, Option RequestId, Option Json, Option RpcError] :=
  (optional? string?, optional? RequestId.ofJson?, optional? fun value => some value.canonical,
    optional? RpcError.ofJson?, ())

theorem find?_schema (levels : Nat) (value : Json) :
    ofJson? value =
      (schema levels).find? (fun gathered => some (ofGathered gathered)) finders value := by
  cases value with
  | arr items =>
    rw [ofJson?, ofFields?_eq]
    simp only [Schema.find?, schema, finders, Schema.atPositions]
    -- All four fields may be missing, so only the length is asked for here.
    by_cases hlength : items.length ≤ 4
    · simp [hlength, Option.bind_assoc]
    · simp [hlength]
  | obj fields =>
    rw [ofJson?]
    simp only [ofFields?_eq, Schema.find?, schema, finders, Schema.atNames]
    cases only? fields "jsonrpc" with
    | none => rfl
    | some jsonrpc =>
      cases only? fields "id" with
      | none => simp
      | some id =>
        cases only? fields "result" with
        | none => simp
        | some result =>
          cases only? fields "error" with
          | none => simp
          | some error => simp [Option.bind_assoc]
  | null | bool | int | real | str => rfl

/-- **A response is read as it is found.** -/
theorem finds_read : Finds levels (read levels) ofJson? :=
  Schema.finds_read
    (fun _ => .field (finds_optional finds_text) (.field RequestId.finds_optional
      (.field finds_arranged (.field (finds_optional RpcError.finds_read) .done))))
    (fun _ => by simp [Schema.names]) find?_schema levels

/-- **A text that denotes a value is read as the response that is found in the value.** -/
theorem parse_eq_ok_iff {value : Json} {response : Response} (h : Denotes text value)
    (hdepth : value.depth ≤ nesting) :
    parse text = .ok response ↔ ofJson? value = some response :=
  finds_read.whole_eq_ok_iff h hdepth

end Response

end Backfill
