import WorkQueue.Proofs.Json.Shape
import WorkQueue.Proofs.Time.Timestamp
import WorkQueue.Task.Record

/-!
# Tasks are read back

What is written of a task is read as the task (`ofText_render`), whatever its texts, its counts and
its payload are, as long as its token fits into its field and no time lies in a leap second.  Every
field is read back by itself, so that the proof is the list of the fields.
-/

namespace WorkQueue.Task

open WorkQueue.Json

/-- Whether the token of a task fits into its field, and its times can be written without loss. -/
structure Representable (task : Task) : Prop where
  lease : ∀ token, task.lease = some token → token < Text.bound64
  processAt : ∀ time, task.processAt = some time → time.Plain
  createdAt : task.createdAt.Plain
  updatedAt : task.updatedAt.Plain

/-! ## Single fields -/

lemma readsBack_instant {time : Instant} (h : time.Plain) :
    ReadsBack readInstant (ofInstant time) time := by
  refine readsBack_parsed ?_
  rw [Timestamp.render, String.toList_ofList]
  exact Timestamp.read_write h

lemma readsBack_state (state : TaskState) :
    ReadsBack (readChoice TaskState.ofName?) (.text state.name) state := by
  refine readsBack_choice ?_
  cases state <;> decide

lemma readsBack_time {time : Option Instant} (h : ∀ t, time = some t → t.Plain) :
    ReadsBack (readNullable readInstant) (.ofOption ofInstant time) time :=
  readsBack_nullable (fun t ht => readsBack_instant (h t ht))
    fun _ _ => ⟨'"', by decide, begins_text _⟩

lemma readsBack_error (error : Option String) :
    ReadsBack (readNullable readText) (.ofOption .text error) error :=
  readsBack_nullable (fun s _ => readsBack_text s) fun s _ => ⟨'"', by decide, begins_text s⟩

lemma readsBack_count (count : UInt32) :
    ReadsBack readCount (.natural count.toNat) count := by
  have hnumber : ReadsBack (readNatural Text.bound32) (.natural count.toNat) count.toNat :=
    readsBack_natural count.toNat_lt (by decide)
  have hcount := hnumber.map UInt32.ofNat
  rwa [UInt32.ofNat_toNat] at hcount

lemma readsBack_lease {token : Nat} (h : token < Text.bound64) :
    ReadsBack (readNullable (readNatural Text.bound64)) (.natural token) (some token) := by
  have hread : ∀ n, some token = some n → ReadsBack (readNatural Text.bound64) (.natural n) n := by
    rintro n ⟨⟩
    exact readsBack_natural h (by decide)
  have hbegins : ∀ n, some token = some n → ∃ c, c ≠ 'n' ∧ Begins (.natural n) c := by
    rintro n ⟨⟩
    obtain ⟨c, hc, hbegins⟩ := begins_natural token
    refine ⟨c, ?_, hbegins⟩
    rintro rfl
    exact absurd hc (by decide)
  exact readsBack_nullable hread hbegins

/-! ## Whole tasks -/

/-- The draft that has all that is written of a task. -/
def draft (task : Task) : Draft where
  id := some task.id
  kind := some task.kind
  payload := some task.payload
  queue := some task.queue
  maxRetry := some task.maxRetry
  retryCount := some task.retryCount
  processAt := task.processAt
  state := some task.state
  lastError := task.lastError
  lease := task.lease
  createdAt := some task.createdAt
  updatedAt := some task.updatedAt

/-- What is written of a task fills its draft. -/
lemma fills_draft {task : Task} (h : task.Representable) :
    Fills members [] Draft.blank
      ([("id", .text task.id),
        ("task_type", .text task.kind),
        ("payload", .list (task.payload.map fun octet => .natural octet.toNat)),
        ("queue", .text task.queue),
        ("max_retry", .natural task.maxRetry.toNat),
        ("retry_count", .natural task.retryCount.toNat),
        ("process_at", .ofOption ofInstant task.processAt),
        ("state", .text task.state.name),
        ("last_error", .ofOption .text task.lastError)] ++
        leaseField task.lease ++
        [("created_at", ofInstant task.createdAt),
         ("updated_at", ofInstant task.updatedAt)]) task.draft := by
  have hlease := h.lease
  unfold draft
  -- Every field is set in the draft before; `dsimp` now and then keeps the draft from growing.
  refine .cons rfl (by decide) ((readsBack_text task.id).map _) ?_
  refine .cons rfl (by decide) ((readsBack_text task.kind).map _) ?_
  refine .cons rfl (by decide) ((readsBack_octets task.payload).map _) ?_
  refine .cons rfl (by decide) ((readsBack_text task.queue).map _) ?_
  dsimp only [Draft.blank]
  refine .cons rfl (by decide) ((readsBack_count task.maxRetry).map _) ?_
  refine .cons rfl (by decide) ((readsBack_count task.retryCount).map _) ?_
  refine .cons rfl (by decide) ((readsBack_time h.processAt).map _) ?_
  dsimp only
  refine .cons rfl (by decide) ((readsBack_state task.state).map _) ?_
  refine .cons rfl (by decide) ((readsBack_error task.lastError).map _) ?_
  dsimp only
  -- The token is written only if there is one.
  cases htoken : task.lease with
  | none =>
    refine .cons rfl (by decide) ((readsBack_instant h.createdAt).map _) ?_
    refine .cons rfl (by decide) ((readsBack_instant h.updatedAt).map _) ?_
    exact .nil _ _
  | some token =>
    refine .cons rfl (by decide) ((readsBack_lease (hlease token htoken)).map _) ?_
    refine .cons rfl (by decide) ((readsBack_instant h.createdAt).map _) ?_
    refine .cons rfl (by decide) ((readsBack_instant h.updatedAt).map _) ?_
    exact .nil _ _

/-- **A task is read back from what is written of it.** -/
theorem ofText_render (task : Task) (h : task.Representable) : ofText task.render = .ok task := by
  have hcomplete : shape.complete task.draft = some task := rfl
  have hread := Shape.read_write (fills_draft h) hcomplete
  unfold ofText
  rw [Text.symbols, render, Json.render, String.toList_ofList]
  exact hread

/-- A task with escapes in its texts and numbers and times at the ends of their ranges. -/
def extreme : Task where
  id := "\"\\/\x00\x1f\x7f"
  kind := "\n\r\t\x08\x0c"
  payload := [0, 34, 92, 255]
  queue := "𝄞 ü \uFFFF"
  maxRetry := 4294967295
  retryCount := 4294967295
  processAt := some .latest
  state := .retrying
  lastError := some ""
  lease := some 18446744073709551615
  createdAt := .earliest
  updatedAt := .latest

lemma representable_extreme : extreme.Representable where
  lease token h := by
    cases h
    decide
  processAt time h := by
    cases h
    exact Instant.plain_latest
  createdAt := Instant.plain_earliest
  updatedAt := Instant.plain_latest

theorem extreme_read_back : extreme.Representable ∧ ofText extreme.render = .ok extreme :=
  ⟨representable_extreme, ofText_render extreme representable_extreme⟩

end WorkQueue.Task
