import BaseAgent.Raft.Inbox
import BaseAgent.Raft.Rendering

/-!
# Replies of the Raft worker

A reply that has been cached is sent before its message is marked completed, as long as the worker
still takes the message for its own when it comes to it again.  It does not when the message was
addressed only by a waiting Run: the first attempt has ended that Run, and the retry marks the
message completed with the reply unsent.

A message gets at most one reply, as long as its identifier is still among the completed ones when
the worker comes to it again.  The list of completed messages is bounded, and the spool of a failed
batch is replayed as a whole, so a batch that is longer than the list loses its first messages from
it.
-/

namespace BaseAgent
namespace Raft

open Async

/-! ## No reply is dropped -/

/-- A reply has been cached for the message, which has not been completed since. -/
def HasReply (id : String) (log : List RaftEntry) : Prop :=
  ∃ before reply between, log = before ++ did (.edit (.cached id reply)) () :: between ∧
    did (.edit (.completed id)) () ∉ between

/-- A message with a reply is still addressed to the Agent, and the claim of its task is not
refused. -/
def Addressed (worker : RaftWorker) (log : List RaftEntry) : RaftEntry → Prop
  | ⟨_, .read .shouldHandle message, state⟩ =>
    HasReply message.messageId log → worker.shouldHandle message state = true
  | ⟨_, .claimTask id _ _, .error e⟩ => HasReply id log → e.isCommand = false
  | _ => True

/-- Each reply that is cached is sent, and its task moved, before its message is completed. -/
def NoneDropped (log : List RaftEntry) : Prop :=
  ∀ id before reply between after,
    log = before ++ did (.edit (.cached id reply)) () :: between ++
      did (.edit (.completed id)) () :: after →
    did (.edit (.completed id)) () ∉ between → Delivered id reply between

section Worker

variable (worker : RaftWorker) (env : RaftEnv) (calls : Nat) (schedule : List Unit)

def RaftWorker.log : List RaftEntry := ((worker.pool calls).run (worker.exec env) schedule).log

/-- A message that has been found not to be the worker's own had no reply. -/
theorem unaddressed_cases {id : String} {before between : List RaftEntry} {reply : CachedReply}
    (hunaddressed : Unaddressed worker id
      (before ++ did (.edit (.cached id reply)) () :: between))
    (hopen : did (.edit (.completed id)) () ∉ between) :
    ∃ earlier e, before ++ did (.edit (.cached id reply)) () :: between = earlier ++ [e] ∧
      ¬ Addressed worker earlier e := by
  have hreply : ∀ earlier e, before ++ did (.edit (.cached id reply)) () :: between =
      earlier ++ [e] → e ≠ did (.edit (.cached id reply)) () → HasReply id earlier := by
    intro earlier e hlog hne
    cases snoc_eq_split.mp hlog.symm with
    | inl hlast => exact absurd hlast.2.1.symm hne
    | inr hearlier =>
      obtain ⟨rest, rfl, hsplit⟩ := hearlier
      exact ⟨before, reply, rest, hsplit, fun hmem => hopen (List.mem_append_left [e] hmem)⟩
  cases hunaddressed with
  | inl hread =>
    obtain ⟨earlier, message, state, hlog, hid, hhandle⟩ := hread
    refine ⟨earlier, _, hlog, fun haddressed => ?_⟩
    have hhas : HasReply message.messageId earlier := by
      rw [hid]
      exact hreply earlier _ hlog fun heq => by cases heq
    have hyes : worker.shouldHandle message state = true := haddressed hhas
    rw [hhandle] at hyes
    cases hyes
  | inr hclaim =>
    obtain ⟨earlier, target, number, e, hlog, hcommand⟩ := hclaim
    refine ⟨earlier, _, hlog, fun haddressed => ?_⟩
    have hno : e.isCommand = false :=
      haddressed (hreply earlier _ hlog fun heq => by cases heq)
    rw [hcommand] at hno
    cases hno

/-- While every step finds its message addressed, no reply is dropped. -/
theorem replies_delivered
    (hsteps : ∀ before e after, worker.log env calls schedule = before ++ e :: after →
      Addressed worker before e) : NoneDropped (worker.log env calls schedule) := by
  intro id before reply between after hlog hopen
  obtain ⟨flight, hbase⟩ := worker_base worker env calls schedule
  cases hbase.completions id before reply between after hlog hopen with
  | inl hdelivered => exact hdelivered
  | inr hunaddressed =>
    obtain ⟨earlier, e, hsplit, hnot⟩ := unaddressed_cases worker hunaddressed hopen
    refine absurd (hsteps earlier e (did (.edit (.completed id)) () :: after) ?_) hnot
    rw [hlog, hsplit]
    simp

end Worker

def inbox (target id content : String) : String :=
  s!"[target={target} msg={id} time=now type=human] @ann: {content}"

/-- A mention in a thread starts a Run, which asks; the answer in the thread ends it.  The send of
step 32 times out. -/
def threadEnv : RaftEnv where
  check n := .ok (if n < 10 then inbox "#dev:t1" "m1" "@bot help"
    else inbox "#dev:t1" "m2" "the first")
  send n _ _ := if n = 32 then .error (.cli "RaftCliTimeoutError" "timed out") else .ok ()
  claim _ _ _ := .ok ()
  update _ _ _ _ := .ok ()
  run _ known _ runId _ :=
    if known then .error (.runAlreadyExists "exists")
    else .ok { status := .waiting, output := some "Which one?", runId := some (uuidText runId) }
  resume _ _ _ := .ok { status := .completed, output := some "done" }

def edited : RaftEntry → Option Edit
  | ⟨_, .edit change, _⟩ => some change
  | _ => none

theorem edited_eq_some {e : RaftEntry} {change : Edit} :
    edited e = some change ↔ e = did (.edit change) () := by
  constructor
  · intro h
    unfold edited at h
    split at h
    · cases h
      rfl
    · cases h
  · rintro rfl
    rfl

theorem split_at {α : Type} {log : List α} {i j : Nat} {a b : α} (ha : log[i]? = some a)
    (hb : (log.drop (i + 1))[j]? = some b) :
    log = log.take i ++ a :: (log.drop (i + 1)).take j ++ b :: (log.drop (i + 1)).drop (j + 1) := by
  obtain ⟨hi, rfl⟩ := List.getElem?_eq_some_iff.mp ha
  obtain ⟨hj, rfl⟩ := List.getElem?_eq_some_iff.mp hb
  rw [List.append_assoc, List.cons_append, List.getElem_cons_drop, List.take_append_drop,
    List.getElem_cons_drop, List.take_append_drop]

-- The thread waits for no Run any more when the answer is replayed.
theorem answered_thread_dropped :
    ¬ NoneDropped (botWorker.log threadEnv 3 (List.replicate 40 ())) := by
  intro hnone
  have hview : ((botWorker.log threadEnv 3 (List.replicate 40 ()))[29]?.bind edited,
      ((botWorker.log threadEnv 3 (List.replicate 40 ())).drop 30)[6]?.bind edited,
      (((botWorker.log threadEnv 3 (List.replicate 40 ())).drop 30).take 6).all
        fun e => !sends "m2" e && !completes "m2" e) =
      (some (.cached "m2" { target := "#dev:t1", content := "done" }), some (.completed "m2"),
        true) := by decide +kernel
  simp only [Prod.mk.injEq] at hview
  obtain ⟨hcached, hcompleted, hbetween⟩ := hview
  obtain ⟨c, hc, hcached⟩ := Option.bind_eq_some_iff.mp hcached
  obtain ⟨d, hd, hcompleted⟩ := Option.bind_eq_some_iff.mp hcompleted
  have hlog := split_at hc hd
  rw [edited_eq_some.mp hcached, edited_eq_some.mp hcompleted] at hlog
  have hnot : ∀ e ∈ ((botWorker.log threadEnv 3 (List.replicate 40 ())).drop 30).take 6,
      sends "m2" e = false ∧ completes "m2" e = false := by
    simpa [List.all_eq_true] using hbetween
  have hdelivered := hnone "m2" _ _ _ _ hlog fun hmem => by
    have hopen := (hnot _ hmem).2
    rw [completes_iff.mpr rfl] at hopen
    cases hopen
  have hsent := (hnot _ hdelivered.1).1
  rw [sends_iff.mpr ⟨_, _, rfl⟩] at hsent
  cases hsent

def directEnv : RaftEnv :=
  { threadEnv with
    check := fun _ => .ok (inbox "dm:@ann" "m1" "help")
    send := fun n _ _ =>
      if n = 13 then .error (.cli "RaftCliTimeoutError" "timed out") else .ok () }

-- The reply of a direct message is sent after a failure.
theorem replies_delivered_direct :
    NoneDropped (botWorker.log directEnv 2 (List.replicate 30 ())) ∧
      (botWorker.log directEnv 2 (List.replicate 30 ())).countP (completes "m1") = 1 := by
  have hview : ((botWorker.log directEnv 2 (List.replicate 30 ())).all fun e => match e with
        | ⟨_, .read .shouldHandle message, state⟩ => botWorker.shouldHandle message state
        | ⟨_, .claimTask .., _⟩ => false
        | _ => true,
      (botWorker.log directEnv 2 (List.replicate 30 ())).countP (completes "m1")) = (true, 1) := by
    decide +kernel
  simp only [Prod.mk.injEq, List.all_eq_true] at hview
  refine ⟨replies_delivered botWorker directEnv 2 _ fun before e after hlog => ?_, hview.2⟩
  have he := hview.1 e (by rw [hlog]; simp)
  unfold Addressed
  split
  · exact fun _ => he
  · cases he
  · trivial

section Worker

variable (worker : RaftWorker) (env : RaftEnv) (calls : Nat) (schedule : List Unit)

/-! ## No reply is sent twice -/

/-- A message that has been completed and is taken up again is still remembered: fewer messages
than the limit have been completed since. -/
def Remembered (worker : RaftWorker) (log : List RaftEntry) : RaftEntry → Prop
  | ⟨_, .read .isCompleted message, _⟩ =>
    did (.edit (.completed message.messageId)) () ∈ log →
      completionsSince message.messageId log < worker.config.processedMessageLimit
  | _ => True

theorem two_of_countP {α : Type} {p : α → Bool} {l : List α} (h : 2 ≤ l.countP p) :
    ∃ before e between e' after, l = before ++ e :: between ++ e' :: after ∧ p e = true ∧
      p e' = true := by
  induction l with
  | nil => simp at h
  | cons a rest ih =>
    by_cases ha : p a = true
    · rw [List.countP_cons_of_pos ha] at h
      obtain ⟨e', hmem, he'⟩ := List.countP_pos_iff.mp (show 0 < rest.countP p by omega)
      obtain ⟨between, after, hrest⟩ := List.append_of_mem hmem
      exact ⟨[], a, between, e', after, by rw [hrest]; rfl, ha, he'⟩
    · rw [List.countP_cons_of_neg ha] at h
      obtain ⟨before, e, between, e', after, hrest, he, he'⟩ := ih h
      exact ⟨a :: before, e, between, e', after, by rw [hrest]; rfl, he, he'⟩

/-- While every message that is taken up again is remembered, no message is replied to twice. -/
theorem replies_at_most_once
    (hsteps : ∀ before e after, worker.log env calls schedule = before ++ e :: after →
      Remembered worker before e) (id : String) :
    (worker.log env calls schedule).countP (sends id) ≤ 1 := by
  by_contra hmore
  obtain ⟨before, e, between, e', after, hlog, he, he'⟩ :=
    two_of_countP (show 2 ≤ (worker.log env calls schedule).countP (sends id) by omega)
  obtain ⟨flight, hbase⟩ := worker_base worker env calls schedule
  obtain ⟨early, message, state, late, hsplit, hid, hforgotten, hcompleted⟩ :=
    hbase.repeats id before e between e' after hlog he he'
  have hread : worker.log env calls schedule =
      early ++ did (.read .isCompleted message) state :: (late ++ e' :: after) := by
    rw [hlog, hsplit]
    simp
  have hrecent := hsteps early _ _ hread (by rw [hid]; exact hcompleted)
  rw [hid] at hrecent
  obtain ⟨first, last, hids, -⟩ := hbase.reads early message state _ hread id
    ⟨_, hcompleted, completes_iff.mpr rfl⟩ hrecent
  apply hforgotten
  rw [hids]
  simp

theorem completionsSince_le (id : String) (log : List RaftEntry) :
    completionsSince id log ≤ log.countP isCompletion := by
  unfold completionsSince since
  exact le_trans ((List.takeWhile_sublist _).countP_le) (by rw [List.countP_reverse])

end Worker

-- The message is taken up a third time when its reply has been sent.
theorem replies_at_most_once_direct :
    (∀ id, (botWorker.log directEnv 3 (List.replicate 40 ())).countP (sends id) ≤ 1) ∧
      (botWorker.log directEnv 3 (List.replicate 40 ())).countP (sends "m1") = 1 := by
  have hview : ((botWorker.log directEnv 3 (List.replicate 40 ())).countP isCompletion,
      (botWorker.log directEnv 3 (List.replicate 40 ())).countP (sends "m1")) = (1, 1) := by
    decide +kernel
  simp only [Prod.mk.injEq] at hview
  refine ⟨replies_at_most_once botWorker directEnv 3 _ fun before e after hlog => ?_, hview.2⟩
  have hfew : before.countP isCompletion ≤ 1 := by
    rw [← hview.1, hlog]
    simp
  unfold Remembered
  split
  · intro _
    have hsince := completionsSince_le ‹RaftMessage›.messageId before
    show _ < 100
    omega
  · trivial

def crowdLine (target id : List Char) : List Char :=
  "[target=".toList ++ target ++ " msg=".toList ++ id ++ " time= type=human] @ann: hi".toList

def crowdMessage (target id : String) : RaftMessage :=
  { target, messageId := id, timestamp := "", senderType := "human", senderHandle := "ann"
    content := "hi" }

/-- The digits of the first hundred numbers, as identifiers of messages. -/
def crowdIds : List (List Char) := (List.range 100).map (Nat.toDigits 10)

/-- A direct message, a hundred messages to others, and another direct message. -/
def crowdText : List Char :=
  joinLines ([crowdLine "dm:@ann".toList "first".toList] ++
    crowdIds.map (crowdLine "#dev".toList) ++ [crowdLine "dm:@bob".toList "last".toList])

def crowd : List RaftMessage :=
  [crowdMessage "dm:@ann" "first"] ++
    crowdIds.map (fun id => crowdMessage "#dev" (String.ofList id)) ++
    [crowdMessage "dm:@bob" "last"]

theorem crowdLine_text (target id : String) :
    crowdLine target.toList id.toList = (crowdMessage target id).text := by
  have htail : " time= type=human] @ann: hi".toList =
      " time=".toList ++ ("".toList ++ (" type=".toList ++ "human".toList)) ++ "] ".toList ++
        ("@".toList ++ ("ann".toList ++ (": ".toList ++ ("hi".toList ++ [])))) := by decide
  have hassoc : ∀ a b c d e f g : List Char,
      a ++ b ++ c ++ d ++ (e ++ f ++ g) = a ++ (b ++ (c ++ (d ++ e))) ++ f ++ g := by simp
  unfold crowdLine
  rw [htail, hassoc]
  rfl

theorem crowdMessage_rendered {target id : String}
    (htarget : target ≠ "" ∧ ∀ c ∈ target.toList, isSpace c = false)
    (hid : id ≠ "" ∧ ∀ c ∈ id.toList, isSpace c = false) (hsome : id ≠ "-") :
    (crowdMessage target id).Rendered asciiLibrary ∧ (crowdMessage target id).Unambiguous := by
  have hfields : (crowdMessage "#dev" "0").Rendered asciiLibrary := {
    header := ⟨⟨by decide, List.all_iff_forall_prop.mp (by decide)⟩,
      ⟨by decide, List.all_iff_forall_prop.mp (by decide)⟩, List.not_mem_nil,
      ⟨by decide, List.all_iff_forall_prop.mp (by decide)⟩⟩
    messageId := by decide
    senderHandle := ⟨by decide, List.all_iff_forall_prop.mp (by decide)⟩
    content := by decide
    content_head := by
      rintro c ⟨⟩
      decide
    content_last := by
      rintro c ⟨⟩
      decide
    continuation := by decide
    untagged := by decide
    task := rfl
    assigned := rfl
    assigned_task _ := rfl
    status := by rintro status ⟨⟩
    assigneeType := by rintro kind ⟨⟩
    assigneeId := by rintro id ⟨⟩ }
  constructor
  · exact { hfields with
      header := ⟨htarget, hid, hfields.header.timestamp, hfields.header.senderType⟩
      messageId := hsome }
  · constructor
    · exact firstPlace_of_notMem List.not_mem_nil
    · exact fun htask => absurd rfl htask
    · exact fun number hnumber => by cases hnumber

/-- The messages of the crowd differ in their target and their identifier. -/
theorem mem_crowd {m : RaftMessage} (h : m ∈ crowd) : ∃ target id, m = crowdMessage target id ∧
    (target ≠ "" ∧ ∀ c ∈ target.toList, isSpace c = false) ∧
    (id ≠ "" ∧ ∀ c ∈ id.toList, isSpace c = false) ∧ id ≠ "-" := by
  have hids : ∀ id ∈ crowdIds, id ≠ [] ∧ id.all (!isSpace ·) = true ∧ id ≠ ['-'] := by decide
  have hvisible : ∀ text : List Char, text.all (!isSpace ·) = true →
      ∀ c ∈ text, isSpace c = false := by
    intro text htext
    simpa using htext
  unfold crowd at h
  rw [List.mem_append, List.mem_append, List.mem_singleton, List.mem_map, List.mem_singleton] at h
  cases h with
  | inl hearly =>
    cases hearly with
    | inl hfirst =>
      exact ⟨_, _, hfirst, ⟨by decide, hvisible _ (by decide)⟩, ⟨by decide, hvisible _ (by decide)⟩,
        by decide⟩
    | inr hmiddle =>
      obtain ⟨id, hmem, rfl⟩ := hmiddle
      obtain ⟨hne, hspaces, hdash⟩ := hids id hmem
      have hid : ∀ other : List Char, id ≠ other → String.ofList id ≠ String.ofList other :=
        fun other hother heq => hother (String.ofList_injective heq)
      refine ⟨_, _, rfl, ⟨by decide, hvisible _ (by decide)⟩, ⟨hid [] hne, ?_⟩, hid ['-'] hdash⟩
      rw [String.toList_ofList]
      exact hvisible id hspaces
  | inr hlast =>
    exact ⟨_, _, hlast, ⟨by decide, hvisible _ (by decide)⟩, ⟨by decide, hvisible _ (by decide)⟩,
      by decide⟩

theorem crowd_rendered : ∀ m ∈ crowd, m.Rendered asciiLibrary ∧ m.Unambiguous := by
  intro m hm
  obtain ⟨target, id, rfl, htarget, hid, hsome⟩ := mem_crowd hm
  exact crowdMessage_rendered htarget hid hsome

theorem crowdText_eq : crowdText = joinLines (crowd.map RaftMessage.text) := by
  have hmiddle : crowdIds.map (crowdLine "#dev".toList) =
      crowdIds.map fun id => (crowdMessage "#dev" (String.ofList id)).text := by
    refine List.map_congr_left fun id _ => ?_
    have hid : (String.ofList id).toList = id := String.toList_ofList
    rw [← crowdLine_text, hid]
  unfold crowdText crowd
  rw [List.map_append, List.map_append, List.map_map, hmiddle, crowdLine_text, crowdLine_text]
  rfl

theorem crowd_last : (joinLines (crowd.map RaftMessage.text)).getLast? ≠ some '.' := by
  have hword : " time= type=human] @ann: hi".toList.getLast? = some 'i' := by decide
  have htexts : ∀ text ∈ crowd.map RaftMessage.text, ∃ c, text.getLast? = some c ∧ c ≠ '.' := by
    intro text htext
    obtain ⟨m, hm, rfl⟩ := List.mem_map.mp htext
    obtain ⟨target, id, rfl, -⟩ := mem_crowd hm
    refine ⟨'i', ?_, by decide⟩
    rw [← crowdLine_text]
    unfold crowdLine
    generalize " time= type=human] @ann: hi".toList = tail at hword ⊢
    rw [List.getLast?_append, hword, Option.some_or]
  obtain ⟨c, hc, hdot⟩ := joinLines_last (by decide) htexts
  rw [hc]
  exact fun heq => hdot (Option.some.inj heq)

theorem parse_crowd : parseRaftMessages asciiLibrary (String.ofList crowdText) = .ok crowd := by
  refine parse_text (by decide) crowd_rendered ?_
  rw [crowdText_eq]
  exact normalized_messages (by decide) (fun m hm => (crowd_rendered m hm).1) crowd_last

theorem crowd_newlines : newlines (String.ofList crowdText) = String.ofList crowdText := by
  apply newlines_of_no_return
  rw [String.toList_ofList]
  decide +kernel

/-- A direct message starts a Run that asks, and the first message of the crowd answers it.  The
reply to the last one cannot be sent. -/
def crowdEnv : RaftEnv where
  check n := .ok (if n < 10 then inbox "dm:@ann" "ask" "help" else String.ofList crowdText)
  send _ target _ :=
    if target = "dm:@bob" then .error (.cli "RaftCliTimeoutError" "timed out") else .ok ()
  claim _ _ _ := .ok ()
  update _ _ _ _ := .ok ()
  run n known _ runId _ :=
    if known then .error (.runAlreadyExists "exists")
    else if n < 10 then
      .ok { status := .waiting, output := some "Which one?", runId := some (uuidText runId) }
    else .ok { status := .completed, output := some "done" }
  resume _ _ _ := .ok { status := .completed, output := some "done" }

def beforeCrowd : RaftWorld := (botWorker.runOnce.eval (botWorker.exec crowdEnv) {}).2

def crowdPass : Except RaftError RaftDrainResult × RaftWorld :=
  (botWorker.drain crowd).eval (botWorker.exec crowdEnv)
    (RaftWorker.spooled beforeCrowd (String.ofList crowdText) 3)

theorem beforeCrowd_ready : (beforeCrowd.spool.isNone, beforeCrowd.steps) = (true, 19) := by
  decide

theorem crowd_answered :
    1 ≤ (((botWorker.drain crowd).history (botWorker.exec crowdEnv)
      (RaftWorker.spooled beforeCrowd (String.ofList crowdText) 3)).take 30).countP
        (sends "first") := by
  decide

theorem crowd_replayed :
    crowdPass.1.toOption.isNone = true ∧
      1 ≤ (((botWorker.drain crowd).history (botWorker.exec crowdEnv)
        (RaftWorker.spooled crowdPass.2 (String.ofList crowdText) 1)).take 30).countP
          (sends "first") := by
  decide +kernel

theorem spool_kept {worker : RaftWorker} {env : RaftEnv} {messages : List RaftMessage}
    {w : RaftWorld} {raw : String} {steps : Nat}
    (h : ((worker.drain messages).eval (worker.exec env)
      (RaftWorker.spooled w raw steps)).1.toOption.isNone = true) :
    ((worker.drain messages).eval (worker.exec env)
      (RaftWorker.spooled w raw steps)).2.spool = some raw := by
  cases houtcome : ((worker.drain messages).eval (worker.exec env)
      (RaftWorker.spooled w raw steps)).1 with
  | ok result =>
    rw [houtcome] at h
    cases h
  | error e => exact RaftWorker.drain_spool worker env messages _ houtcome

theorem serve_three {worker : RaftWorker} {env : RaftEnv} {w w' w'' : RaftWorld}
    (h : (worker.runOnce.eval (worker.exec env) w).2 = w')
    (h' : (worker.runOnce.eval (worker.exec env) w').2 = w'') :
    (worker.serve 3).history (worker.exec env) w =
      worker.runOnce.history (worker.exec env) w ++
        (worker.runOnce.history (worker.exec env) w' ++
          (worker.runOnce.history (worker.exec env) w'' ++
            (worker.serve 0).history (worker.exec env)
              (worker.runOnce.eval (worker.exec env) w'').2)) := by
  rw [RaftWorker.serve_succ, RaftWorker.serve_succ, RaftWorker.serve_succ, h, h']

theorem countP_of_take {α : Type} {p : α → Bool} {l : List α} {n : Nat}
    (h : 1 ≤ (l.take n).countP p) : 1 ≤ l.countP p :=
  le_trans h ((List.take_sublist n l).countP_le)

-- The first message has left the list of a hundred when the batch is replayed.
theorem forgotten_message_replied_twice :
    (crowd.map (·.messageId)).Nodup ∧ "ask" ∉ crowd.map (·.messageId) ∧
      ∃ schedule, 2 ≤ (botWorker.log crowdEnv 3 schedule).countP (sends "first") := by
  have hready := beforeCrowd_ready
  simp only [Prod.mk.injEq, Option.isNone_iff_eq_none] at hready
  obtain ⟨hspool, hsteps⟩ := hready
  have hparse : parseRaftMessages botWorker.lib (String.ofList crowdText) = .ok crowd := parse_crowd
  have hcheck : crowdEnv.check (beforeCrowd.steps + 1) = .ok (String.ofList crowdText) := by
    rw [hsteps]
    rfl
  obtain ⟨hfirst, hfirstLog⟩ := RaftWorker.runOnce_drained (w := beforeCrowd) rfl hspool hcheck rfl
    hparse (by decide)
  obtain ⟨hfailed, hagain⟩ := crowd_replayed
  have hfile : ∀ n, crowdEnv.file n = true := fun _ => rfl
  have hkept : crowdPass.2.spool = some (String.ofList crowdText) := by
    unfold crowdPass at hfailed ⊢
    exact spool_kept hfailed
  have hreplay : parseRaftMessages botWorker.lib (newlines (String.ofList crowdText)) = .ok crowd := by
    rw [crowd_newlines]
    exact hparse
  have hsecond := (RaftWorker.runOnce_spooled (hfile crowdPass.2.steps) hkept hreplay).2
  refine ⟨by decide, by decide, ?_⟩
  have hrun : ∃ schedule, ((botWorker.pool 3).run (botWorker.exec crowdEnv) schedule).log =
      [] ++ (botWorker.serve 3).history (botWorker.exec crowdEnv) {} := Prog.run_history _
  obtain ⟨schedule, hlog⟩ := hrun
  refine ⟨schedule, ?_⟩
  have hthree : (botWorker.serve 3).history (botWorker.exec crowdEnv) {} =
      botWorker.runOnce.history (botWorker.exec crowdEnv) {} ++
        (botWorker.runOnce.history (botWorker.exec crowdEnv) beforeCrowd ++
          (botWorker.runOnce.history (botWorker.exec crowdEnv) crowdPass.2 ++
            (botWorker.serve 0).history (botWorker.exec crowdEnv)
              (botWorker.runOnce.eval (botWorker.exec crowdEnv) crowdPass.2).2)) := by
    refine serve_three ?_ ?_
    · rw [beforeCrowd]
    · rw [hfirst, crowdPass]
  unfold RaftWorker.log
  rw [hlog, List.nil_append, hthree, hfirstLog, hsecond]
  simp only [List.countP_append, List.countP_cons]
  have h₁ := countP_of_take crowd_answered
  have h₂ := countP_of_take hagain
  omega

end Raft
end BaseAgent
