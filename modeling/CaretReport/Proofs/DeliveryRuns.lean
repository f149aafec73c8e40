import CaretReport.Delivery
import CaretReport.Draft
import CaretReport.Proofs.RunWidths
import Mathlib

/-!
# Runs of a delivery

A delivery with a callback handles the blocks of a report one after the other.
`Handles` lists all that can happen to one block, and `Delivers` all runs that
come of it: a run goes on as long as no block ends it.  The delivery makes
exactly these runs.  So it can be read off the cases which errors escape and
which progress is reported.
-/

namespace CaretReport

/-- What happens when a delivery handles one block. -/
inductive Handles (sink : Sink) (callback : Callback) (progress : Progress)
    (attempt : Nat) : Except OutputError (List Char) → Run → Prop where
  /-- A block that cannot be made is not attempted. -/
  | unmade (cause : OutputError) :
      Handles sink callback progress attempt (.error cause)
        ⟨[], attempt, some (.block cause)⟩
  /-- Any failure but a device error ends the run without a call. -/
  | broken (block : List Char) {reason : List Char}
      (failure : sink.failure attempt = some (.other reason)) :
      Handles sink callback progress attempt (.ok block)
        ⟨[.failed attempt], attempt + 1, some (.write (.other reason))⟩
  /-- The callback learns of a device error and raises. -/
  | refused (block : List Char) {reason : List Char} {cause : DeliveryError}
      (failure : sink.failure attempt = some (.device reason))
      (reply : callback (some reason) progress = .raise cause) :
      Handles sink callback progress attempt (.ok block)
        ⟨[.failed attempt, .called (some reason) progress.index], attempt + 1,
          some cause⟩
  /-- The callback learns of a device error and returns; a text that it returns
  is not written. -/
  | discarded (block : List Char) {reason : List Char}
      (failure : sink.failure attempt = some (.device reason))
      (reply : ∀ cause, callback (some reason) progress ≠ .raise cause) :
      Handles sink callback progress attempt (.ok block)
        ⟨[.failed attempt, .called (some reason) progress.index,
          .yielded progress], attempt + 1, none⟩
  /-- The block is written and the callback raises. -/
  | raised (block : List Char) {cause : DeliveryError}
      (success : sink.failure attempt = none)
      (reply : callback none progress = .raise cause) :
      Handles sink callback progress attempt (.ok block)
        ⟨[.wrote (sink.encoding.encode block), .called none progress.index],
          attempt + 1, some cause⟩
  /-- The block is written and the callback returns nothing. -/
  | proceeded (block : List Char) (success : sink.failure attempt = none)
      (reply : callback none progress = .proceed) :
      Handles sink callback progress attempt (.ok block)
        ⟨[.wrote (sink.encoding.encode block), .called none progress.index,
          .yielded progress], attempt + 1, none⟩
  /-- The block is written, and so is the text that the callback returns. -/
  | appended (block : List Char) {extra : List Char}
      (success : sink.failure attempt = none)
      (reply : callback none progress = .append extra)
      (extra_success : sink.failure (attempt + 1) = none) :
      Handles sink callback progress attempt (.ok block)
        ⟨[.wrote (sink.encoding.encode block), .called none progress.index,
          .wrote (sink.encoding.encode extra), .yielded progress], attempt + 2,
          none⟩
  /-- The block is written, but not the text that the callback returns: any
  failure of this second write ends the run. -/
  | unappended (block : List Char) {extra : List Char} {cause : WriteError}
      (success : sink.failure attempt = none)
      (reply : callback none progress = .append extra)
      (extra_failure : sink.failure (attempt + 1) = some cause) :
      Handles sink callback progress attempt (.ok block)
        ⟨[.wrote (sink.encoding.encode block), .called none progress.index,
          .failed (attempt + 1)], attempt + 2, some (.write cause)⟩

/-- The runs of a delivery that handles blocks, the first of them with a given
index, until one of them ends the run or all are handled. -/
inductive Delivers (sink : Sink) (callback : Callback) (total : Nat) :
    Nat → List (Except OutputError (List Char)) → Nat → Run → Prop where
  | exhausted (index attempt : Nat) :
      Delivers sink callback total index [] attempt
        ⟨[.exhausted], attempt, none⟩
  | ended {index attempt : Nat} {block : Except OutputError (List Char)} {run : Run}
      (rest : List (Except OutputError (List Char)))
      (handles : Handles sink callback ⟨index, total⟩ attempt block run)
      (failed : run.error ≠ none) :
      Delivers sink callback total index (block :: rest) attempt run
  | continued {index attempt : Nat} {block : Except OutputError (List Char)}
      {rest : List (Except OutputError (List Char))} {run later : Run}
      (handles : Handles sink callback ⟨index, total⟩ attempt block run)
      (passed : run.error = none)
      (onward : Delivers sink callback total (index + 1) rest run.attempts later) :
      Delivers sink callback total index (block :: rest) attempt
        ⟨run.events ++ later.events, later.attempts, later.error⟩

section Handling

variable {sink : Sink} {callback : Callback} {progress : Progress}
variable {attempt : Nat} {block : Except OutputError (List Char)} {run : Run}

/-- The delivery of a block handles it. -/
theorem handles_deliverMade (sink : Sink) (callback : Callback)
    (progress : Progress) (attempt : Nat)
    (block : Except OutputError (List Char)) :
    Handles sink callback progress attempt block
      (deliverMade (deliverBlockWith sink callback progress) block attempt) := by
  cases block with
  | error cause => exact .unmade cause
  | ok block =>
      simp only [deliverMade, deliverBlockWith, Sink.write]
      cases failure : sink.failure attempt with
      | none =>
          simp only [Run.followedBy]
          cases reply : callback none progress with
          | proceed => exact .proceeded block failure reply
          | raise cause => exact .raised block failure reply
          | append extra =>
              simp only [followReply, deliverBlock, Sink.write]
              cases extra_failure : sink.failure (attempt + 1) with
              | none => exact .appended block failure reply extra_failure
              | some cause => exact .unappended block failure reply extra_failure
      | some cause =>
          cases cause with
          | other reason => exact .broken block failure
          | device reason =>
              simp only [Run.followedBy]
              cases reply : callback (some reason) progress with
              | raise cause => exact .refused block failure reply
              | proceed => exact .discarded block failure (by simp [reply])
              | append extra => exact .discarded block failure (by simp [reply])

/-- A block is handled by its delivery alone. -/
theorem Handles.eq_deliverMade
    (handles : Handles sink callback progress attempt block run) :
    run = deliverMade (deliverBlockWith sink callback progress) block
      attempt := by
  cases handles with
  | unmade cause => rfl
  | broken block failure =>
      simp only [deliverMade, deliverBlockWith, Sink.write, failure]
  | refused block failure reply =>
      simp only [deliverMade, deliverBlockWith, Sink.write, failure,
        Run.followedBy, reply, followReply, List.cons_append, List.nil_append]
  | discarded block failure reply =>
      rename_i reason
      simp only [deliverMade, deliverBlockWith, Sink.write, failure,
        Run.followedBy]
      cases answer : callback (some reason) progress with
      | raise cause => exact absurd answer (reply cause)
      | proceed => rfl
      | append extra => rfl
  | raised block success reply =>
      simp only [deliverMade, deliverBlockWith, Sink.write, success,
        Run.followedBy, reply, followReply, List.cons_append, List.nil_append]
  | proceeded block success reply =>
      simp only [deliverMade, deliverBlockWith, Sink.write, success,
        Run.followedBy, reply, followReply, List.cons_append, List.nil_append]
  | appended block success reply extra_success =>
      simp only [deliverMade, deliverBlockWith, Sink.write, success,
        Run.followedBy, reply, followReply, deliverBlock, extra_success]
      rfl
  | unappended block success reply extra_failure =>
      simp only [deliverMade, deliverBlockWith, Sink.write, success,
        Run.followedBy, reply, followReply, deliverBlock, extra_failure]
      rfl

theorem handles_iff :
    Handles sink callback progress attempt block run ↔
      run = deliverMade (deliverBlockWith sink callback progress) block
        attempt := by
  constructor
  · exact Handles.eq_deliverMade
  · rintro rfl
    exact handles_deliverMade ..

end Handling

namespace Run

/-- The progress that the run reports. -/
def yields (run : Run) : List Progress :=
  run.events.filterMap fun event =>
    match event with
    | .yielded progress => some progress
    | _ => none

end Run

section Delivering

variable {sink : Sink} {callback : Callback} {total index attempt : Nat}
variable {blocks : List (Except OutputError (List Char))} {run : Run}

theorem deliverBlocks_cons (step : Progress → List Char → Nat → Run)
    (block : Except OutputError (List Char)) :
    deliverBlocks step total none index (block :: blocks) attempt =
      (deliverMade (step ⟨index, total⟩) block attempt).followedBy
        (deliverBlocks step total none (index + 1) blocks) :=
  rfl

/-- A delivery of blocks makes exactly one run. -/
theorem delivers_iff :
    Delivers sink callback total index blocks attempt run ↔
      run = deliverBlocks (deliverBlockWith sink callback) total none index
        blocks attempt := by
  induction blocks generalizing index attempt run with
  | nil =>
      constructor
      · rintro ⟨⟩
        rfl
      · rintro rfl
        exact .exhausted index attempt
  | cons block rest ih =>
      rw [deliverBlocks_cons, Run.followedBy]
      constructor
      · intro delivers
        cases delivers with
        | ended _ handles failed =>
            rw [handles_iff] at handles
            rw [← handles]
            split
            · rfl
            · rename_i passed
              exact absurd passed failed
        | continued handles passed onward =>
            rw [handles_iff] at handles
            rw [← handles, passed, ← ih.mp onward]
      · rintro rfl
        -- Whether the run goes on depends on the error of this block alone.
        have handles := handles_deliverMade sink callback ⟨index, total⟩ attempt
          block
        split
        · rename_i cause failed
          refine .ended rest handles ?_
          rw [failed]
          exact Option.some_ne_none cause
        · rename_i passed
          exact .continued handles passed (ih.mpr rfl)

/-- A block that does not end the run reports its progress once. -/
theorem Handles.yields_eq {progress : Progress}
    {block : Except OutputError (List Char)}
    (handles : Handles sink callback progress attempt block run)
    (passed : run.error = none) : run.yields = [progress] := by
  cases handles with
  | discarded _ _ _ => rfl
  | proceeded _ _ _ => rfl
  | appended _ _ _ _ => rfl
  | unmade _ => cases passed
  | broken _ _ => cases passed
  | refused _ _ _ => cases passed
  | raised _ _ _ => cases passed
  | unappended _ _ _ _ => cases passed

/-- A run that ends without an error reports the progress of every block. -/
theorem Delivers.yields_eq
    (delivers : Delivers sink callback total index blocks attempt run)
    (passed : run.error = none) :
    run.yields = (List.range' index blocks.length).map fun place =>
      ⟨place, total⟩ := by
  induction delivers with
  | exhausted index attempt => rfl
  | ended rest handles failed => exact absurd passed failed
  | continued handles here onward ih =>
      -- The error of the whole is that of the later part.
      rw [Run.yields, List.filterMap_append, List.length_cons, List.range'_succ,
        List.map_cons, ← ih passed]
      exact congrArg (· ++ _) (handles.yields_eq here)

/-- The last event of the run is a call that raises, or the failed write of a
text that the callback returned for a block that was written. -/
def EndsInCallback (callback : Callback) (sink : Sink) (total : Nat)
    (cause : WriteError) (run : Run) : Prop :=
  (∃ before reason index,
    run.events = before ++ [.called reason index] ∧
      callback reason ⟨index, total⟩ = .raise (.write cause)) ∨
  ∃ before extra index attempt,
    run.events = before ++ [.called none index, .failed attempt] ∧
      callback none ⟨index, total⟩ = .append extra ∧
      sink.failure attempt = some cause

theorem EndsInCallback.append_left {cause : WriteError} {later : Run}
    (ends : EndsInCallback callback sink total cause later)
    (events : List DeliveryEvent) (attempts : Nat)
    (error : Option DeliveryError) :
    EndsInCallback callback sink total cause
      ⟨events ++ later.events, attempts, error⟩ := by
  rcases ends with ⟨before, call, index, events_eq, reply⟩ |
    ⟨before, extra, index, attempt, events_eq, reply, failure⟩
  · refine Or.inl ⟨events ++ before, call, index, ?_, reply⟩
    rw [events_eq, List.append_assoc]
  · refine Or.inr ⟨events ++ before, extra, index, attempt, ?_, reply, failure⟩
    rw [events_eq, List.append_assoc]

theorem Handles.endsInCallback {block : Except OutputError (List Char)}
    {reason : List Char}
    (handles : Handles sink callback ⟨index, total⟩ attempt block run)
    (failed : run.error = some (.write (.device reason))) :
    EndsInCallback callback sink total (.device reason) run := by
  cases handles with
  | unmade _ => cases failed
  | broken _ _ => cases failed
  | discarded _ _ _ => cases failed
  | proceeded _ _ _ => cases failed
  | appended _ _ _ _ => cases failed
  | refused _ _ reply =>
      obtain rfl := Option.some.inj failed
      exact Or.inl ⟨[_], _, index, rfl, reply⟩
  | raised _ _ reply =>
      obtain rfl := Option.some.inj failed
      exact Or.inl ⟨[_], _, index, rfl, reply⟩
  | unappended _ _ reply extra_failure =>
      cases failed
      exact Or.inr ⟨[_], _, index, _, rfl, reply, extra_failure⟩

/-- A device error ends a run only through the callback. -/
theorem Delivers.endsInCallback {reason : List Char}
    (delivers : Delivers sink callback total index blocks attempt run)
    (failed : run.error = some (.write (.device reason))) :
    EndsInCallback callback sink total (.device reason) run := by
  induction delivers with
  | exhausted index attempt => cases failed
  | ended rest handles _ => exact handles.endsInCallback failed
  | continued handles here onward ih => exact (ih failed).append_left _ _ _

end Delivering

section Writing

variable {sink : Sink} (steady : ∀ attempt, sink.failure attempt = none)

/-- The run succeeds and hands over the given chunks. -/
structure Run.HandsOver (run : Run) (chunks : List Chunk) : Prop where
  passed : run.error = none
  written : run.written = chunks

/-- A delivery that hands over every block in one chunk hands over all of
them. -/
theorem handsOver_deliverBlocks {step : Progress → List Char → Nat → Run}
    (each : ∀ progress block attempt,
      (step progress block attempt).HandsOver [sink.encoding.encode block])
    (total index attempt : Nat) (blocks : List (List Char)) :
    (deliverBlocks step total none index (blocks.map .ok) attempt).HandsOver
      (blocks.map sink.encoding.encode) := by
  induction blocks generalizing index attempt with
  | nil => exact ⟨rfl, rfl⟩
  | cons block rest ih =>
      have here := each ⟨index, total⟩ block attempt
      rw [List.map_cons, deliverBlocks_cons, deliverMade, Run.followedBy,
        here.passed]
      have later := ih (index + 1) (step ⟨index, total⟩ block attempt).attempts
      refine ⟨later.passed, ?_⟩
      rw [Run.written, List.filterMap_append]
      exact congrArg₂ (· ++ ·) here.written later.written

include steady

theorem handsOver_deliverBlock (progress : Progress) (block : List Char)
    (attempt : Nat) : (deliverBlock sink progress block attempt).HandsOver
      [sink.encoding.encode block] := by
  simp only [deliverBlock, Sink.write, steady]
  exact ⟨rfl, rfl⟩

theorem handsOver_deliverBlockWith (progress : Progress) (block : List Char)
    (attempt : Nat) :
    (deliverBlockWith sink (fun _ _ => .proceed) progress block attempt).HandsOver
      [sink.encoding.encode block] := by
  simp only [deliverBlockWith, Sink.write, steady]
  exact ⟨rfl, rfl⟩

end Writing

theorem Run.HandsOver.attemptsOnly {run : Run} {chunks : List Chunk}
    (handsOver : run.HandsOver chunks) : run.attemptsOnly.HandsOver chunks := by
  refine ⟨handsOver.passed, ?_⟩
  rw [← handsOver.written]
  refine (List.filterMap_filter ..).trans ?_
  apply List.filterMap_congr
  intro event _
  cases event <;> rfl

/-- The chunks, one after the other, make up a text in an encoding. -/
def Encoding.Concatenates (encoding : Encoding) (chunks : List Chunk)
    (text : List Char) : Prop :=
  match encoding with
  | .text => ∃ parts : List (List Char),
      chunks = parts.map .text ∧ parts.flatten = text
  | .utf8 => ∃ parts : List (List UInt8),
      chunks = parts.map .bytes ∧ parts.flatten = utf8Bytes text

theorem Encoding.concatenates_map_encode (encoding : Encoding)
    (blocks : List (List Char)) :
    encoding.Concatenates (blocks.map encoding.encode) blocks.flatten := by
  cases encoding with
  | text => exact ⟨blocks, rfl, rfl⟩
  | utf8 =>
      refine ⟨blocks.map utf8Bytes, ?_, ?_⟩
      · rw [List.map_map]
        rfl
      · simp only [utf8Bytes, List.flatten_eq_flatMap, List.flatMap_assoc,
          List.flatMap_map, id]

namespace Report

/-- A report that renders makes all of its blocks. -/
theorem map_block?_of_render? {report : Report} {text : List Char}
    (rendered : report.render? = .ok text) :
    report.segments.map report.block? = report.blocks.map .ok ∧
      report.blocks.flatten = text := by
  obtain ⟨blocks, made, same⟩ := bind_eq_ok_iff.mp rendered
  have each := (mapM_eq_ok_iff _ _ _).mp made
  obtain rfl := mapM_block?_eq_ok made
  exact ⟨map_eq_map_of_forall₂ each, Except.ok.inj same⟩

/-- A full delivery with a callback makes the one run in which every block is
handled in turn, and a block that cannot be made ends it: one with a run that is
too long, or with a range whose digits are too many.  A device error ends the run
only through the callback, and a run without an error reports the progress of
every segment.  A sink that never fails is handed one chunk for each segment of a
report that renders, whose concatenation is the rendering, by every way of
delivery. -/
theorem iterateWith_delivers (report : Report) (sink : Sink)
    (callback : Callback) (attempt : Nat) :
    (∀ run, Delivers sink callback report.segments.length 0
        (report.segments.map report.block?) attempt run ↔
      run = report.iterateWith sink callback none attempt) ∧
    (∀ segment ∈ report.segments,
      (report.block? segment = .ok (report.block segment) ∧
        (∀ line ∈ report.linesOf segment, line.check = .ok ()) ∧
          (report.showRangeSuffix = true →
            segment.toSpan.isWritable = true)) ∨
      (report.block? segment = .error .uncountable ∧
        ∃ line ∈ report.linesOf segment, line.check = .error .uncountable) ∨
      report.block? segment = .error (.number .tooLongToWrite) ∧
        (∀ line ∈ report.linesOf segment, line.check = .ok ()) ∧
          report.showRangeSuffix = true ∧ segment.toSpan.isWritable = false) ∧
    (∀ reason, (report.iterateWith sink callback none attempt).error =
        some (.write (.device reason)) →
      EndsInCallback callback sink report.segments.length (.device reason)
        (report.iterateWith sink callback none attempt)) ∧
    ((report.iterateWith sink callback none attempt).error = none →
      (report.iterateWith sink callback none attempt).yields =
        (List.range report.segments.length).map fun index =>
          ⟨index, report.segments.length⟩) ∧
    ∀ text, (∀ attempt, sink.failure attempt = none) →
      report.render? = .ok text →
      ∀ run ∈ [report.write sink attempt, report.iterate sink none attempt,
          report.iterateWith sink (fun _ _ => .proceed) none attempt],
        run.HandsOver (report.segments.map fun segment =>
            sink.encoding.encode (report.block segment)) ∧
          sink.encoding.Concatenates run.written text := by
  have delivers : Delivers sink callback report.segments.length 0
      (report.segments.map report.block?) attempt
      (report.iterateWith sink callback none attempt) := delivers_iff.mpr rfl
  refine ⟨fun run => delivers_iff, fun segment _ => report.block?_cases segment,
    fun reason => delivers.endsInCallback, ?_, ?_⟩
  · intro passed
    rw [delivers.yields_eq passed, List.length_map, List.range_eq_range']
  · intro text steady rendered
    obtain ⟨made, text_eq⟩ := map_block?_of_render? rendered
    have iterated : (report.iterate sink none attempt).HandsOver
        (report.blocks.map sink.encoding.encode) := by
      rw [iterate, made]
      exact handsOver_deliverBlocks (handsOver_deliverBlock steady) ..
    have called : (report.iterateWith sink (fun _ _ => .proceed) none
        attempt).HandsOver (report.blocks.map sink.encoding.encode) := by
      rw [iterateWith, made]
      exact handsOver_deliverBlocks (handsOver_deliverBlockWith steady) ..
    have chunks_eq : report.blocks.map sink.encoding.encode =
        report.segments.map fun segment =>
          sink.encoding.encode (report.block segment) := List.map_map
    intro run member
    have handsOver : run.HandsOver (report.blocks.map sink.encoding.encode) := by
      simp only [List.mem_cons, List.not_mem_nil, or_false] at member
      rcases member with rfl | rfl | rfl
      · exact iterated.attemptsOnly
      · exact iterated
      · exact called
    refine ⟨chunks_eq ▸ handsOver, ?_⟩
    rw [handsOver.written, ← text_eq]
    exact sink.encoding.concatenates_map_encode report.blocks

/-- Two segments on a sink that refuses the first block and the text that the
callback appends to the second, and on one that takes everything. -/
theorem iterateWith_delivers_refused :
    let report : Report := {
      text := ['a', 'b']
      segments := [⟨.single 0, [], by simp⟩, ⟨.single 1, [], by simp⟩] }
    let failing : Sink := ⟨.text, fun attempt =>
      if attempt = 0 then some (.device "full".toList)
      else if attempt = 2 then some (.device "gone".toList)
      else none⟩
    let steady : Sink := ⟨.utf8, fun _ => none⟩
    let callback : Callback := fun _ _ => .append ['x']
    let run := report.iterateWith failing callback none 0
    let full := report.iterateWith steady callback none 0
    Delivers failing callback 2 0 (report.segments.map report.block?) 0 run ∧
      run.error = some (.write (.device "gone".toList)) ∧
      EndsInCallback callback failing 2 (.device "gone".toList) run ∧
      full.error = none ∧ full.yields = [⟨0, 2⟩, ⟨1, 2⟩] ∧
      (∀ attempt, steady.failure attempt = none) ∧
      ∃ text, report.render? = .ok text ∧
        ∀ run ∈ [report.write steady 0, report.iterate steady none 0,
            report.iterateWith steady (fun _ _ => .proceed) none 0],
          run.HandsOver (report.segments.map fun segment =>
              .bytes (utf8Bytes (report.block segment))) ∧
            Encoding.utf8.Concatenates run.written text := by
  intro report failing steady callback run full
  have failed : run.error = some (.write (.device "gone".toList)) := by
    unfold run report failing callback
    cbv
  have passed : full.error = none := by
    unfold full report steady callback
    cbv
  have renders : report.render?.toOption.isSome = true := by
    unfold report
    cbv
  obtain ⟨runs, _, escapes, _, _⟩ :=
    iterateWith_delivers report failing callback 0
  obtain ⟨_, _, _, yields, writes⟩ :=
    iterateWith_delivers report steady callback 0
  cases rendered : report.render? with
  | error cause =>
      rw [rendered] at renders
      cases renders
  | ok text =>
      exact ⟨(runs run).mpr rfl, failed, escapes _ failed, passed, yields passed,
        fun _ => rfl, text, rfl, writes text (fun _ => rfl) rendered⟩

/-- A segment whose arrow stands further from its message than a machine word can
count: no write is attempted, and no callback is asked. -/
theorem iterateWith_unattempted_farArrow :
    let draft : Draft := {
      text := ['a', 'b']
      config := {
        trimInput := false
        layout := { arrowPadding := 9223372036854775808 } }
      labels := [{ span := .single 0, message := ['m'] }] }
    ∃ report, draft.finish = .ok report ∧ report.segments.length = 1 ∧
      ∀ sink callback attempt,
        report.iterateWith sink callback none attempt =
          ⟨[], attempt, some (.block .uncountable)⟩ := by
  intro draft
  have failing : draft.finish.toOption.map
      (fun report => report.segments.map report.block?) =
        some [.error .uncountable] := by
    unfold draft
    cbv
  obtain ⟨report, finished, blocks⟩ := exists_eq_ok_of_map failing
  refine ⟨report, finished, ?_, ?_⟩
  · have length := congrArg List.length blocks
    rwa [List.length_map] at length
  · intro sink callback attempt
    rw [iterateWith, blocks]
    rfl

end Report

end CaretReport
