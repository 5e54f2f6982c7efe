import PurcFetcher.Cache.RecordFile
import PurcFetcher.Core.Machine

/-!
# Reading and writing files

An `IOChannel` reads a file in chunks that are collected, in a chain of callbacks on the main
thread and in a loop on other threads, and writes data in a chain of callbacks.  Each answer of a
stream tells how many bytes were transferred, which may be fewer than were asked for.

The offsets that are passed to a channel are not looked at.
-/

namespace PurcFetcher.Cache.IOChannel

open Machine List

/-! ## Streams -/

/-- What a stream answers to a request. -/
inductive Answer
  | transferred (size : ℕ)
  | failed

/-- The sizes that are an answer to a request for `requested` bytes where `available` bytes are
left.  Nothing is transferred only if nothing is requested or left. -/
def Answers (requested available size : ℕ) : Prop :=
  size ≤ requested ∧ size ≤ available ∧ (size = 0 → requested = 0 ∨ available = 0)

instance (requested available size : ℕ) : Decidable (Answers requested available size) :=
  inferInstanceAs (Decidable (_ ∧ _))

theorem answers_min (requested available : ℕ) :
    Answers requested available (min requested available) := by
  refine ⟨Nat.min_le_left _ _, Nat.min_le_right _ _, fun hzero => ?_⟩
  omega

/-- Every sequence of sizes that a stream answers with is at most `rounds` long, and goes on
until the operation is done. -/
structure Transfers {State : Type} (step : State → Answer → Option State) (start : State)
    (rounds : ℕ) (Done : State → Prop) : Prop where
  ends : ∀ (sizes : List ℕ) state, run step start (sizes.map .transferred) = some state →
    sizes.length ≤ rounds
  goesOn : ∀ (sizes : List ℕ) state, run step start (sizes.map .transferred) = some state →
    Done state ∨ ∃ size next, step state (.transferred size) = some next

section

variable {State : Type} {step : State → Answer → Option State} {start : State} {rounds : ℕ}
  {Done : State → Prop}

/-- The steps that are taken where no request fails. -/
def transferStep (step : State → Answer → Option State) (state : State) (size : ℕ) :
    Option State :=
  step state (.transferred size)

theorem run_transferred (s : State) (sizes : List ℕ) :
    run step s (sizes.map .transferred) = run (transferStep step) s sizes := by
  induction sizes generalizing s with
  | nil => rfl
  | cons size sizes ih =>
    rw [map_cons, run, run]
    apply congrArg
    funext next
    exact ih next

theorem Transfers.of_step (inv : State → Prop) (measure : State → ℕ)
    (hstart : inv start) (hrounds : measure start ≤ rounds)
    (hstep : ∀ {s size next}, inv s → step s (.transferred size) = some next →
      inv next ∧ measure next < measure s)
    (hgoesOn : ∀ {s}, inv s →
      Done s ∨ ∃ size next, step s (.transferred size) = some next) :
    Transfers step start rounds Done where
  ends sizes s hrun := by
    rw [run_transferred] at hrun
    have hlen := length_add_le_of_step measure hstep hstart hrun
    omega
  goesOn sizes s hrun := by
    rw [run_transferred] at hrun
    have hkept : ∀ {s size next}, inv s → True → transferStep step s size = some next → inv next :=
      fun hinv _ hnext => (hstep hinv hnext).1
    exact hgoesOn (run_of_step hkept hstart (meets_true _ _) hrun)

end

/-! ## Reading -/

def gDefaultReadBufferSize : ℕ := 4096

/-- A read that waits for an answer to a request for `bytesToRead` bytes, or that has called the
completion handler.  `position` is where the stream is in the file. -/
inductive Reading
  | waiting (bytesToRead position : ℕ) (data : Data)
  | completed (data : Data) (error : ℤ)

def fillDataFromReadBuffer (chunk : List UInt8) (data : Data) : Data :=
  match data with
  | none => some chunk
  | some bytes => Data.concatenate (some bytes) (some chunk)

section

variable (file : List UInt8) (size : ℕ)

def bufferSize : ℕ := min size gDefaultReadBufferSize

/-- The callback of an asynchronous read that has not failed. -/
def inputStreamReadReadyCallback (position : ℕ) (data : Data) (bytesRead : ℕ) : Reading :=
  if bytesRead = 0 then .completed data 0
  else
    let data := fillDataFromReadBuffer ((file.drop position).take bytesRead) data
    let pendingBytesToRead := size - data.size
    if pendingBytesToRead = 0 then .completed data 0
    else .waiting (min pendingBytesToRead (bufferSize size)) (position + bytesRead) data

/-- A round of the loop of `readSyncInThread` in which the stream has not failed. -/
def readSyncRound (position : ℕ) (data : Data) (bytesRead : ℕ) : Reading :=
  if bytesRead = 0 then .completed data 0
  else
    let data := fillDataFromReadBuffer ((file.drop position).take bytesRead) data
    let pendingBytesToRead := size - data.size
    let bytesToRead := min pendingBytesToRead (bufferSize size)
    if pendingBytesToRead ≠ 0 then .waiting bytesToRead (position + bytesRead) data
    else .completed data 0

/-- A stream answers, and the round goes on with the answer. -/
def answerRead (round : ℕ → Data → ℕ → Reading) (afterFailure : Data → Data) :
    Reading → Answer → Option Reading
  | .waiting bytesToRead position data, .transferred bytesRead =>
    if Answers bytesToRead (file.length - position) bytesRead then
      some (round position data bytesRead)
    else none
  | .waiting _ _ data, .failed => some (.completed (afterFailure data) (-1))
  | .completed _ _, _ => none

def readStep : Reading → Answer → Option Reading :=
  answerRead file (inputStreamReadReadyCallback file size) id

/-- After a failure the data that was read is given up. -/
def readSyncStep : Reading → Answer → Option Reading :=
  answerRead file (readSyncRound file size) fun _ => none

/-- The first request of `read` and of `readSyncInThread`. -/
def read (hasInputStream : Bool) : Reading :=
  if hasInputStream then .waiting (bufferSize size) 0 none else .completed none (-1)

/-- The handler was called with the first `size` bytes of the file. -/
def Delivered (reading : Reading) : Prop :=
  ∃ data, reading = .completed data 0 ∧ data.bytes = file.take size

theorem readSyncRound_eq : readSyncRound file size = inputStreamReadReadyCallback file size := by
  grind [readSyncRound, inputStreamReadReadyCallback]

/-- The data is what lies before the position. -/
def ReadInv : Reading → Prop
  | .waiting bytesToRead position data =>
    bytesToRead = min (size - position) (bufferSize size) ∧ position ≤ size ∧
      position ≤ file.length ∧ data.bytes = file.take position
  | .completed data error => error = 0 ∧ data.bytes = file.take size

def readMeasure : Reading → ℕ
  | .waiting _ position _ => min size file.length - position + 1
  | .completed _ _ => 0

variable {file size}

theorem bytes_fill_take {pos : ℕ} {data : Data}
    (hdata : data.bytes = file.take pos) (bytesRead : ℕ) :
    (fillDataFromReadBuffer ((file.drop pos).take bytesRead) data).bytes =
      file.take (pos + bytesRead) := by
  rw [take_add, ← hdata]
  cases data <;> rfl

theorem ReadInv.callback {bytesToRead pos bytesRead : ℕ} {data : Data}
    (hinv : ReadInv file size (.waiting bytesToRead pos data))
    (hanswers : Answers bytesToRead (file.length - pos) bytesRead) :
    ReadInv file size (inputStreamReadReadyCallback file size pos data bytesRead) ∧
      readMeasure file size (inputStreamReadReadyCallback file size pos data bytesRead) <
        readMeasure file size (.waiting bytesToRead pos data) := by
  obtain ⟨hbytes, hsize, hlen, hdata⟩ := hinv
  obtain ⟨hrequested, havailable, hnothing⟩ := hanswers
  rw [inputStreamReadReadyCallback]
  by_cases hzero : bytesRead = 0
  · -- At the end of the file, or nothing was asked for.
    rw [if_pos hzero]
    refine ⟨⟨rfl, ?_⟩, Nat.succ_pos _⟩
    rw [hdata]
    have hbuf : bufferSize size = min size 4096 := rfl
    by_cases hend : pos = size
    · rw [hend]
    · rw [take_of_length_le (by omega), take_of_length_le (by omega)]
  · rw [if_neg hzero]
    have hfilled := bytes_fill_take hdata bytesRead
    have hfilledSize : (fillDataFromReadBuffer ((file.drop pos).take bytesRead) data).size =
        pos + bytesRead := by
      rw [Data.size, hfilled, length_take]
      omega
    dsimp only
    rw [hfilledSize]
    by_cases hpend : size - (pos + bytesRead) = 0
    · rw [if_pos hpend]
      refine ⟨⟨rfl, ?_⟩, Nat.succ_pos _⟩
      rw [hfilled, show pos + bytesRead = size by omega]
    · rw [if_neg hpend]
      refine ⟨⟨rfl, by omega, by omega, hfilled⟩, ?_⟩
      change min size file.length - (pos + bytesRead) + 1 < min size file.length - pos + 1
      omega

theorem transfers_read (file : List UInt8) (size : ℕ) (afterFailure : Data → Data) :
    Transfers (answerRead file (inputStreamReadReadyCallback file size) afterFailure)
      (read size true) (min size file.length + 1) (Delivered file size) := by
  apply Transfers.of_step (ReadInv file size) (readMeasure file size)
  · refine ⟨?_, Nat.zero_le _, Nat.zero_le _, rfl⟩
    rw [bufferSize, Nat.sub_zero, ← Nat.min_assoc, Nat.min_self]
  · exact Nat.le_refl _
  · intro reading bytesRead next hinv hnext
    cases reading with
    | completed => exact absurd hnext.symm (Option.some_ne_none next)
    | waiting bytesToRead pos =>
      rw [answerRead] at hnext
      by_cases hanswers : Answers bytesToRead (file.length - pos) bytesRead
      · rw [if_pos hanswers] at hnext
        exact Option.some.inj hnext ▸ hinv.callback hanswers
      · rw [if_neg hanswers] at hnext
        exact absurd hnext.symm (Option.some_ne_none next)
  · intro reading hinv
    cases reading with
    | completed data =>
      obtain ⟨rfl, hdata⟩ := hinv
      exact Or.inl ⟨data, rfl, hdata⟩
    | waiting bytesToRead pos =>
      exact Or.inr ⟨_, _, if_pos (answers_min bytesToRead (file.length - pos))⟩

end

/-! ## Writing -/

/-- A write that waits for an answer to a request to write the buffer, or that has called the
completion handler.  `written` is what the stream has taken. -/
inductive Writing
  | waiting (buffer written : List UInt8)
  | completed (written : List UInt8) (error : ℤ)

/-- The callback of a write that has not failed. -/
def outputStreamWriteReadyCallback (buffer written : List UInt8) (bytesWritten : ℕ) : Writing :=
  let written := written ++ buffer.take bytesWritten
  let pendingBytesToWrite := buffer.length - bytesWritten
  if pendingBytesToWrite = 0 then .completed written 0
  else .waiting ((buffer.drop bytesWritten).take pendingBytesToWrite) written

def writeStep : Writing → Answer → Option Writing
  | .waiting buffer written, .transferred bytesWritten =>
    if Answers buffer.length buffer.length bytesWritten then
      some (outputStreamWriteReadyCallback buffer written bytesWritten)
    else none
  | .waiting _ written, .failed => some (.completed written (-1))
  | .completed _ _, _ => none

/-- `write` of data that is not null. -/
def write (hasOutputStream : Bool) (data : List UInt8) : Writing :=
  if hasOutputStream then .waiting data [] else .completed [] (-1)

def WriteInv (data : List UInt8) : Writing → Prop
  | .waiting buffer written => written ++ buffer = data
  | .completed written error => error = 0 ∧ written = data

def writeMeasure : Writing → ℕ
  | .waiting buffer _ => buffer.length + 1
  | .completed _ _ => 0

theorem WriteInv.callback {data buf written : List UInt8} {bytesWritten : ℕ}
    (hinv : WriteInv data (.waiting buf written))
    (hanswers : Answers buf.length buf.length bytesWritten) :
    WriteInv data (outputStreamWriteReadyCallback buf written bytesWritten) ∧
      writeMeasure (outputStreamWriteReadyCallback buf written bytesWritten) <
        writeMeasure (.waiting buf written) := by
  obtain ⟨hle, -, hnothing⟩ := hanswers
  rw [outputStreamWriteReadyCallback]
  by_cases hpend : buf.length - bytesWritten = 0
  · rw [if_pos hpend]
    refine ⟨⟨rfl, ?_⟩, Nat.succ_pos _⟩
    rw [take_of_length_le (by omega)]
    exact hinv
  · rw [if_neg hpend]
    have hrest : (buf.drop bytesWritten).take (buf.length - bytesWritten) =
        buf.drop bytesWritten := by
      apply take_of_length_le
      rw [length_drop]
    rw [hrest]
    refine ⟨?_, ?_⟩
    · change written ++ buf.take bytesWritten ++ buf.drop bytesWritten = data
      rw [append_assoc, take_append_drop]
      exact hinv
    · change (buf.drop bytesWritten).length + 1 < buf.length + 1
      rw [length_drop]
      omega

theorem transfers_write (data : List UInt8) :
    Transfers writeStep (write true data) (data.length + 1) (· = .completed data 0) := by
  apply Transfers.of_step (WriteInv data) writeMeasure
  · exact nil_append data
  · exact Nat.le_refl _
  · intro writing bytesWritten next hinv hnext
    cases writing with
    | completed => exact absurd hnext.symm (Option.some_ne_none next)
    | waiting buf =>
      rw [writeStep] at hnext
      by_cases hanswers : Answers buf.length buf.length bytesWritten
      · rw [if_pos hanswers] at hnext
        exact Option.some.inj hnext ▸ hinv.callback hanswers
      · rw [if_neg hanswers] at hnext
        exact absurd hnext.symm (Option.some_ne_none next)
  · intro writing hinv
    cases writing with
    | completed =>
      obtain ⟨rfl, rfl⟩ := hinv
      exact Or.inl rfl
    | waiting buf =>
      have hanswers := answers_min buf.length buf.length
      exact Or.inr ⟨_, _, if_pos hanswers⟩

/-- Whatever sizes the streams answer with, both ways to read deliver the first bytes of the file
and a write writes all bytes of the data, each in a bounded number of rounds. -/
theorem transfers_all (file data : List UInt8) (size : ℕ) :
    Transfers (readStep file size) (read size true) (min size file.length + 1)
        (Delivered file size) ∧
      Transfers (readSyncStep file size) (read size true) (min size file.length + 1)
        (Delivered file size) ∧
      Transfers writeStep (write true data) (data.length + 1) (· = .completed data 0) := by
  refine ⟨transfers_read file size id, ?_, transfers_write data⟩
  rw [readSyncStep, readSyncRound_eq]
  exact transfers_read file size fun _ => none

end PurcFetcher.Cache.IOChannel
