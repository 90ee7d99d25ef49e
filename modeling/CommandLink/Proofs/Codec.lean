import CommandLink.Proofs.Json.Members
import CommandLink.Request
import CommandLink.Response
/-!
# Requests and responses read back

A request that is sent arrives with the receiver, action, parameters and mode it was sent with, and a
response arrives as it is. Nothing else of a request travels: where it arrives it belongs to the
endpoint that it arrived at.

Results:
* `Request.decode_encode`: a request, read back at an endpoint.
* `Response.decode_encode`: a response, read back.
* `arrives_as_sent`: both, for whoever relies on the wire.
-/
namespace CommandLink

namespace Request
open Json (writeMember writeBehind)

/-- What arrives of a request at an endpoint. -/
def arrived (r : Request) (e : EndpointName) : Request :=
  { r with destination := e, progress := .inFlight, listeners := [] }

theorem members_encode (r : Request) (rest : Bytes) {n : Nat} (hn : 3 < n) :
    schema.members (n + 1) true schema.start
        (writeMember "receiver" (Json.writeText r.receiver)
          ++ (writeBehind [("action", Json.writeText r.action),
              ("params", Json.writeTable r.parameters), ("mode", Json.writeText r.mode.name)]
            ++ 0x7D :: rest))
      = .ok (⟨some r.receiver, some r.action, some r.parameters, some r.mode⟩, 0x7D :: rest) := by
  obtain ⟨n, rfl⟩ : ∃ m, n = m + 4 := ⟨n - 4, by omega⟩
  rw [Json.Schema.members_first ⟨some r.receiver, none, none, none⟩ rfl rfl
      (by simp only [Json.text_writeText, bind, Except.bind]; rfl),
    Json.Schema.members_next ⟨some r.receiver, some r.action, none, none⟩ rfl rfl
      (by simp only [Json.text_writeText, bind, Except.bind]),
    Json.Schema.members_next ⟨some r.receiver, some r.action, some r.parameters, none⟩ rfl
      rfl (by simp only [Json.table_writeTable, bind, Except.bind]),
    Json.Schema.members_next ⟨some r.receiver, some r.action, some r.parameters, some r.mode⟩ rfl rfl
      (by simp only [Json.variant_writeText (DeliveryMode.ofName?_name r.mode), bind, Except.bind])]
  exact Json.Schema.members_end false _ rest n

theorem decode_encode (r : Request) (e : EndpointName) : decode r.encode e = .ok (r.arrived e) := by
  have hread : schema.read r.encode
      = .ok ((r.receiver, r.action, r.parameters, r.mode), []) := by
    rw [← List.append_nil r.encode]
    exact Json.Schema.read_writeObject (fun n hn => members_encode r [] hn) rfl
  rw [decode, Json.parse_of_read hread]
  rfl

end Request

namespace Response
open Json (writeMember writeBehind)

theorem decode_encode (r : Response) : decode r.encode = .ok r := by
  obtain ⟨v, message⟩ := r
  have hverdict : ∀ rest, Json.variant Verdict.named (Json.writeText v.name ++ rest) = .ok (v, rest) :=
    Json.variant_writeText (Verdict.ofName?_name v)
  have hread : schema.read (encode ⟨v, message⟩) = .ok (⟨v, message⟩, []) := by
    rw [← List.append_nil (encode _)]
    cases message with
    | none =>
      refine Json.Schema.read_writeObject (d := ⟨some v, none⟩) (fun n hn => ?_) rfl
      obtain ⟨n, rfl⟩ : ∃ m, n = m + 1 := ⟨n - 1, by simp at hn; omega⟩
      rw [Json.Schema.members_first ⟨some v, none⟩ rfl rfl
        (by simp only [hverdict, bind, Except.bind]; rfl)]
      exact Json.Schema.members_end false _ [] n
    | some m =>
      refine Json.Schema.read_writeObject (d := ⟨some v, some (some m)⟩) (fun n hn => ?_) rfl
      obtain ⟨n, rfl⟩ : ∃ m, n = m + 2 := ⟨n - 2, by simp at hn; omega⟩
      rw [Json.Schema.members_first ⟨some v, none⟩ rfl rfl
          (by simp only [hverdict, bind, Except.bind]; rfl),
        Json.Schema.members_next ⟨some v, some (some m)⟩ rfl rfl
          (by simp only [Json.optionalText_writeText, bind, Except.bind])]
      exact Json.Schema.members_end false _ [] n
  rw [decode, Json.parse_of_read hread]

theorem encode_injective {r r' : Response} (h : r.encode = r'.encode) : r = r' := by
  have hread := decode_encode r
  rw [h, decode_encode r'] at hread
  exact (Except.ok.inj hread).symm

end Response

/-- Whatever texts a request is made of, what is written of it can be read at every endpoint, and says
there what the request says. So it is with a response, and one with an empty message is not written
like one without a message. -/
theorem arrives_as_sent :
    (∀ (r : Request) (e : EndpointName), ∃ r', Request.decode r.encode e = .ok r'
      ∧ r'.receiver = r.receiver ∧ r'.action = r.action ∧ r'.parameters = r.parameters
      ∧ r'.mode = r.mode ∧ r'.destination = e)
    ∧ (∀ r : Response, Response.decode r.encode = .ok r)
    ∧ ∀ v : Verdict, (⟨v, some ""⟩ : Response).encode ≠ (⟨v, none⟩ : Response).encode := by
  refine ⟨fun r e => ?_, Response.decode_encode, fun v h => ?_⟩
  · exact ⟨r.arrived e, r.decode_encode e, rfl, rfl, rfl, rfl, rfl⟩
  · cases Response.encode_injective h

example : ((Request.start .agent "Echo" "ping").setParameter "a\"" "\t").encode
    = Text.Utf8.ofText ("\x7b\"receiver\":\"Echo\",\"action\":\"ping\","
      ++ "\"params\":\x7b\"a\\\"\":\"\\t\"\x7d,\"mode\":\"RESPONSE_EXPECTED\"\x7d") := by
  decide +kernel

end CommandLink
