import Bundler.Build

/-!
# What a run tells

The console keeps all that is written, so what a part of a run tells is what it adds
(`Host.Tells`). A report of changes is a list of messages (`report`): `mem_report_iff` says that it
tells of no differences exactly if there are no changes, and `diff_eq_nil_iff` that this is so
exactly if the texts are equal. The report is written as it is (`Host.tells_reportDiff`).
-/

namespace Bundler

/-! ## Differences -/

/-- Only equal lists of lines have no changes. -/
theorem changesFrom_eq_nil_iff {index : Nat} {old new : List String} :
    changesFrom index old new = [] ↔ old = new := by
  constructor
  · intro h
    fun_induction changesFrom index old new with
    | case1 => rfl
    | case2 | case3 => cases h
    | case4 index line olds news later ih => rw [ih h]
    | case5 => cases h
  · rintro rfl
    exact changesFrom_self index old

/-- Two texts have no changes exactly if they are equal. -/
theorem diff_eq_nil_iff {old new : String} : diff old new = [] ↔ old = new := by
  unfold diff
  rw [changesFrom_eq_nil_iff]
  constructor
  · intro h
    rw [← Text.joinLines_splitLines old, h, Text.joinLines_splitLines]
  · rintro rfl
    rfl

/-- The messages that tell of changes. -/
def report (changes : List Change) : List String :=
  if changes.isEmpty then ["No differences."]
  else (toString changes.length ++ " line(s) changed:") :: renderDiff true changes

/-- A line of a change starts with its colour. -/
theorem head?_of_mem_renderDiff {changes : List Change} {shown : String}
    (h : shown ∈ renderDiff true changes) : shown.toList.head? = some '\x1b' := by
  obtain ⟨change, -, hside⟩ := List.mem_flatMap.1 h
  rcases List.mem_append.1 hside with hside | hside
  · obtain ⟨line, -, rfl⟩ := Option.map_eq_some_iff.1 (Option.mem_toList.1 hside)
    simp [Change.side, Style.red]
  · obtain ⟨line, -, rfl⟩ := Option.map_eq_some_iff.1 (Option.mem_toList.1 hside)
    simp [Change.side, Style.green]

/-- That there are no differences is told only if there are no changes. -/
theorem mem_report_iff {changes : List Change} :
    "No differences." ∈ report changes ↔ changes = [] := by
  cases changes with
  | nil => simp [report]
  | cons change rest =>
    refine iff_of_false (fun h => ?_) (List.cons_ne_nil change rest)
    rcases List.mem_cons.1 h with h | h
    · have hlast := congrArg (fun message => message.toList.getLast?) h
      simp at hlast
    · have hhead := head?_of_mem_renderDiff h
      simp at hhead

/-! ## Messages -/

/-- A message of information as it is written. -/
def Console.line (message : String) : String :=
  Style.green ++ Style.bold ++ "INFO:" ++ Style.reset ++ " " ++ message ++ "\n"

/-- A debug message as it is written. -/
def Console.debugLine (message : String) : String :=
  Style.blue ++ "DEBUG:" ++ Style.reset ++ " " ++ message ++ "\n"

/-- Different messages are written differently. -/
theorem Console.line_injective : Function.Injective Console.line := by
  intro message other h
  have hchars := congrArg String.toList h
  simp only [Console.line, String.toList_append, List.append_assoc, List.append_cancel_left_eq,
    List.append_cancel_right_eq] at hchars
  exact String.toList_inj.1 hchars

/-- A debug message is written differently from all information. -/
theorem Console.debugLine_ne_line (message other : String) :
    Console.debugLine message ≠ Console.line other := by
  intro h
  have hchars := congrArg (fun shown => shown.toList[3]?) h
  simp [Console.debugLine, Console.line, Style.blue, Style.green] at hchars

namespace Host

variable {before middle after host : Host} {texts others : List String}

/-- On the way from one host to the other exactly these texts were written. -/
def Tells (before after : Host) (texts : List String) : Prop :=
  after.console.written = before.console.written ++ texts

theorem Tells.trans (h : before.Tells middle texts) (h' : middle.Tells after others) :
    before.Tells after (texts ++ others) := by
  unfold Tells at *
  rw [h', h, List.append_assoc]

theorem tells_info (host : Host) (message : String) :
    host.Tells (host.info message) [Console.line message] := rfl

theorem tells_infos (host : Host) (messages : List String) :
    host.Tells (host.infos messages) (messages.map Console.line) := by
  induction messages generalizing host with
  | nil => exact (List.append_nil _).symm
  | cons message rest ih => exact (tells_info host message).trans (ih (host.info message))

/-- The report is written. -/
theorem tells_reportDiff (host : Host) (old new : String) :
    host.Tells (host.reportDiff old new) ((report (diff old new)).map Console.line) := by
  unfold reportDiff reportChanges report
  split
  · exact tells_info host _
  · exact tells_infos host (_ :: _)

theorem tells_debug (host : Host) (message : String) :
    host.Tells (host.debug message)
      (if host.console.verbose then [Console.debugLine message] else []) := by
  unfold debug Console.debug
  split
  · rfl
  · exact (List.append_nil _).symm

/-- The clock writes nothing. -/
@[simp] theorem console_tick (host : Host) : host.tick.1.console = host.console := by
  unfold tick; split <;> rfl

theorem tells_tick (host : Host) : host.Tells host.tick.1 [] := by
  unfold Tells
  rw [console_tick, List.append_nil]

/-- The time on the clock does not depend on the files, nor on what was written. -/
theorem tick_congr (h : middle.clock = before.clock) : middle.tick.2 = before.tick.2 := by
  unfold tick
  rw [h]
  cases before.clock <;> rfl

end Host

end Bundler
