import WorkQueue.Proofs.Json.Reading
import WorkQueue.Proofs.Text.Utf8
import WorkQueue.Verification.Payload

/-!
# The payload of a verification task is read back

Whatever the name of an account is, the handler reads the payload that the submission has written
(`decode_encode`).
-/

namespace WorkQueue.Verification.Payload

open WorkQueue.Json WorkQueue.Json.Reader WorkQueue.Text

/-- The octets of a payload decode to an object of one field. -/
lemma decode_octets (payload : Payload) :
    Utf8.decode payload.encode =
      .char '{' :: ((writeText "username").map .char ++
        .char ':' :: ((writeText payload.username).map .char ++ [.char '}'])) := by
  rw [encode, Utf8.decode_encode]
  simp [toJson, Json.render, symbols, Json.write, Json.writeFields, Json.commas]

/-- The fields of a payload are read up to the closing brace. -/
lemma reads_fields (payload : Payload) (fuel : Nat) (rest : List Symbol) :
    (shape.readByName (fuel + 2) true [] none).Reads
      ((writeText "username").map .char ++
        .char ':' :: ((writeText payload.username).map .char ++ .char '}' :: rest))
      (some payload.username) (.char '}' :: rest) := by
  rw [Shape.readByName, writeText_append]
  refine (reads_another_first rfl (by decide) _).bind ?_
  rw [← writeText_append]
  refine (reads_fieldName "username" _).bind ?_
  -- The name is that of the only field, and it was not read before.
  change Reads (do
    colon
    let draft ← (do return some (← readText))
    shape.readByName (fuel + 1) false ["username"] draft) _ _ _
  refine (reads_colon _).bind ?_
  refine Reads.bind ((reads_readText payload.username _).bind (reads_pure (some _) _)) ?_
  rw [Shape.readByName]
  exact (reads_another_close rfl false rest).bind (reads_pure _ _)

/-- The octets that are written of a payload are read as the payload. -/
theorem decode_encode (payload : Payload) : decode payload.encode = .ok payload := by
  rw [decode, decode_octets, Shape.read]
  refine Reads.run ((reads_peek rfl _).bind ((reads_skip _ _).bind ((reads_get _).bind ?_)))
  refine (reads_fields payload _ []).bind ?_
  exact (reads_pure payload _).bind ((reads_skip _ _).bind (reads_pure _ _))

end WorkQueue.Verification.Payload
