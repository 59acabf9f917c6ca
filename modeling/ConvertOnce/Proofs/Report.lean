import ConvertOnce.Report
import Mathlib.Data.List.Induction

/-!
# What log calls leave

Log calls are sorted by their level: warnings and errors go to the ends of their lists and progress
to the error stream, all in the order of the calls, and nothing else is kept (`Report.logAll_eq`).
-/

namespace ConvertOnce

/-- The messages of the calls at a level. -/
def messages (level : Gravity) (calls : List LogCall) : List String :=
  (calls.filter (·.level = level)).map LogCall.text

/-- The messages at a level, if the threshold lets that level through. -/
def messagesAbove (threshold level : Gravity) (calls : List LogCall) : List String :=
  if threshold.rank ≤ level.rank then messages level calls else []

/-- Messages written out one after the other, each framed by line ends. -/
def framed (texts : List String) : String :=
  String.join (texts.map fun text => "\n" ++ text ++ "\n")

/-- What is kept of an error message. -/
def Finding.ofMessage (message : String) : Finding where
  message
  code := none
  phase := some "ngcc"
  severity := "error"
  notes := []

variable {threshold level : Gravity} {calls calls' : List LogCall}

theorem messages_append :
    messages level (calls ++ calls') = messages level calls ++ messages level calls' := by
  rw [messages, List.filter_append, List.map_append]
  rfl

theorem messagesAbove_append :
    messagesAbove threshold level (calls ++ calls')
      = messagesAbove threshold level calls ++ messagesAbove threshold level calls' := by
  unfold messagesAbove
  split
  · exact messages_append
  · rfl

theorem framed_append (texts texts' : List String) :
    framed (texts ++ texts') = framed texts ++ framed texts' := by
  rw [framed, List.map_append, String.join_append]
  rfl

namespace Report

/-- The report with everything that is collected from log calls, and the text that they write. -/
def collected (threshold : Gravity) (r : Report) (calls : List LogCall) : Report × String :=
  ({ warnings := r.warnings ++ messagesAbove threshold .warn calls
     errors := r.errors ++ (messages .error calls).map Finding.ofMessage },
    framed (messagesAbove threshold .info calls))

/-- One call. -/
theorem log_eq (threshold : Gravity) (r : Report) (call : LogCall) :
    r.log threshold call = collected threshold r [call] := by
  obtain ⟨level, words⟩ := call
  cases level with
  | debug => simp [log, collected, messages, messagesAbove, framed]
  | error => simp [log, collected, messages, messagesAbove, framed, Finding.ofMessage]
  | info =>
    by_cases h : threshold.rank ≤ Gravity.info.rank
    · simp [log, collected, messages, messagesAbove, framed, h]
    · simp [log, collected, messages, messagesAbove, framed, h]
  | warn =>
    by_cases h : threshold.rank ≤ Gravity.warn.rank
    · simp [log, collected, messages, messagesAbove, framed, h]
    · simp [log, collected, messages, messagesAbove, framed, h]

/-- One call after others. -/
theorem collected_append (threshold : Gravity) (r : Report) (calls calls' : List LogCall) :
    collected threshold r (calls ++ calls') =
      ((collected threshold (collected threshold r calls).1 calls').1,
        (collected threshold r calls).2
          ++ (collected threshold (collected threshold r calls).1 calls').2) := by
  simp only [collected, messagesAbove_append, messages_append, framed_append, List.map_append,
    List.append_assoc]

/-- **Log calls in turn leave what is collected from all of them.** -/
theorem logAll_eq (threshold : Gravity) (r : Report) (calls : List LogCall) :
    r.logAll threshold calls = collected threshold r calls := by
  -- From the last call on: what came before it is in the report and in the text already.
  induction calls using List.reverseRecOn with
  | nil => simp [logAll, collected, messages, messagesAbove, framed]
  | append_singleton calls call ih =>
    have hfold : r.logAll threshold (calls ++ [call]) =
        (((r.logAll threshold calls).1.log threshold call).1,
          (r.logAll threshold calls).2 ++ ((r.logAll threshold calls).1.log threshold call).2) := by
      rw [logAll, List.foldl_append]
      rfl
    rw [hfold, ih, log_eq, ← collected_append]

end Report

end ConvertOnce
