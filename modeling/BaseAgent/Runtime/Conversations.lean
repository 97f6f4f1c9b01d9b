import Mathlib.Data.List.Infix
import Mathlib.Data.List.TakeWhile
import BaseAgent.Runtime.Handle

/-!
# Conversation history

The in-memory store of conversations and their turns.  `settled` is the history that has
come to its end: the turns before the first that still runs or waits.  Every call either
leaves it as it is or extends it, as long as no turn begins under the identifier of an
earlier turn of its conversation; `finish_turn` looks a turn up by that identifier and takes
the first one it finds.
-/

namespace BaseAgent
namespace Runtime

structure Conversation where
  id : UUID
  profileId : String
  version : Nat := 0
  activeRunId : Option UUID := none
  createdAt : Time
  updatedAt : Time

structure ConversationTurn where
  conversationId : UUID
  sequence : Nat
  runId : UUID
  status : RunStatus := .running
  userMessage : String
  assistantMessage : Option String := none
  createdAt : Time
  updatedAt : Time
  deriving DecidableEq, Repr

inductive ConversationError where
  | value (message : String)
  | alreadyExists (message : String)
  | notFound (message : String)
  | profileMismatch (message : String)
  | busy (message : String)
  | turnNotFound (message : String)
  deriving DecidableEq, Repr

/-- `_conversations` and `_turns`. -/
structure InMemoryConversationStore where
  conversations : UUID → Option Conversation := fun _ => none
  turns : UUID → List ConversationTurn := fun _ => []

/-- What a turn adds to the messages: nothing unless it is completed. -/
def ConversationTurn.messages (turn : ConversationTurn) : List Message :=
  if turn.status = .completed then
    [.user turn.userMessage, .assistant (some (turn.assistantMessage.getD ""))]
  else []

namespace InMemoryConversationStore

variable (s : InMemoryConversationStore)

def getLocked (conversationId : UUID) : Except ConversationError Conversation :=
  orRaise (s.conversations conversationId)
    (.notFound s!"conversation '{uuidText conversationId}' was not found")

def messagesLocked (conversationId : UUID) : List Message :=
  (s.turns conversationId).flatMap (·.messages)

def setConversation (conversationId : UUID) (conversation : Conversation) :
    InMemoryConversationStore :=
  { s with conversations := Function.update s.conversations conversationId (some conversation) }

def setTurns (conversationId : UUID) (turns : List ConversationTurn) :
    InMemoryConversationStore :=
  { s with turns := Function.update s.turns conversationId turns }

def createConversation (conversation : Conversation) :
    Except ConversationError InMemoryConversationStore := do
  raiseIf ((s.conversations conversation.id).isSome)
    (.alreadyExists s!"conversation '{uuidText conversation.id}' already exists")
  return s.setConversation conversation.id conversation

def requireIdle (conversationId : UUID) (conversation : Conversation) :
    Except ConversationError Unit :=
  match conversation.activeRunId with
  | none => .ok ()
  | some active =>
    .error (.busy (s!"conversation '{uuidText conversationId}' already has active run " ++
      s!"'{uuidText active}'"))

/-- The turn, the messages before it and the store with the turn in it. -/
def beginTurn (now : Time) (conversationId runId : UUID) (profileId userMessage : String) :
    Except ConversationError (ConversationTurn × List Message × InMemoryConversationStore) := do
  raiseIf (isBlank userMessage) (.value "user_message must not be empty")
  let conversation ← s.getLocked conversationId
  raiseIf (conversation.profileId ≠ profileId)
    (.profileMismatch (s!"conversation '{uuidText conversationId}' belongs to profile " ++
      s!"'{conversation.profileId}', not '{profileId}'"))
  requireIdle conversationId conversation
  let turn : ConversationTurn :=
    { conversationId := conversationId
      sequence := conversation.version + 1
      runId := runId
      userMessage := userMessage
      createdAt := now
      updatedAt := now }
  let begun := (s.setTurns conversationId (s.turns conversationId ++ [turn])).setConversation
    conversationId
    { conversation with
      version := turn.sequence
      activeRunId := some runId
      updatedAt := now }
  return (turn, s.messagesLocked conversationId, begun)

def finishTurn (now : Time) (conversationId runId : UUID) (status : RunStatus)
    (assistantMessage : Option String) :
    Except ConversationError (ConversationTurn × InMemoryConversationStore) := do
  raiseIf (status = .created ∨ status = .running)
    (.value "Conversation Turn cannot finish in an active Run state")
  let conversation ← s.getLocked conversationId
  let turns := s.turns conversationId
  -- the first turn of the Run, wherever it is in the history
  let turn ← orRaise (turns.find? (·.runId = runId))
    (.turnNotFound (s!"conversation '{uuidText conversationId}' has no turn for run " ++
      s!"'{uuidText runId}'"))
  raiseIf (conversation.activeRunId ≠ some runId)
    (.busy (s!"run '{uuidText runId}' is not the active run for conversation " ++
      s!"'{uuidText conversationId}'"))
  let normalizedMessage :=
    if status = .completed ∧ assistantMessage = none then some "" else assistantMessage
  let updated : ConversationTurn :=
    { turn with
      status := status
      assistantMessage := normalizedMessage
      updatedAt := now }
  let stored := s.setTurns conversationId (turns.set (turns.findIdx (·.runId = runId)) updated)
  return (updated,
    if status = .waiting then stored
    else stored.setConversation conversationId
      { conversation with activeRunId := none, updatedAt := now })

def messages (conversationId : UUID) : Except ConversationError (List Message) := do
  let _ ← s.getLocked conversationId
  return s.messagesLocked conversationId

end InMemoryConversationStore

/-- `create` is the call of `Agent.create_conversation`, which makes a new conversation. -/
inductive ConversationOp where
  | create (conversationId : UUID) (profileId : String)
  | beginTurn (conversationId runId : UUID) (profileId userMessage : String)
  | finishTurn (conversationId runId : UUID) (status : RunStatus)
      (assistantMessage : Option String)
  | messages (conversationId : UUID)
  deriving DecidableEq, Repr

structure ConversationCall where
  now : Time
  op : ConversationOp
  deriving DecidableEq, Repr

inductive ConversationReply where
  | created
  | began (turn : ConversationTurn) (history : List Message)
  | finished (turn : ConversationTurn)
  | listed (messages : List Message)
  | raised (error : ConversationError)

namespace InMemoryConversationStore

def perform (s : InMemoryConversationStore) (call : ConversationCall) :
    ConversationReply × InMemoryConversationStore :=
  match call.op with
  | .create conversationId profileId =>
    match s.createConversation
        { id := conversationId
          profileId := profileId
          createdAt := call.now
          updatedAt := call.now } with
    | .ok s' => (.created, s')
    | .error e => (.raised e, s)
  | .beginTurn conversationId runId profileId userMessage =>
    match s.beginTurn call.now conversationId runId profileId userMessage with
    | .ok (turn, history, s') => (.began turn history, s')
    | .error e => (.raised e, s)
  | .finishTurn conversationId runId status assistantMessage =>
    match s.finishTurn call.now conversationId runId status assistantMessage with
    | .ok (turn, s') => (.finished turn, s')
    | .error e => (.raised e, s)
  | .messages conversationId =>
    match s.messages conversationId with
    | .ok messages => (.listed messages, s)
    | .error e => (.raised e, s)

def after (s : InMemoryConversationStore) : List ConversationCall → InMemoryConversationStore
  | [] => s
  | call :: calls => (s.perform call).2.after calls

/-- The message list of a conversation that a call returns: that of `messages`, or the
history that `begin_turn` hands to the Run. -/
def returned (s : InMemoryConversationStore) (conversationId : UUID) (call : ConversationCall) :
    Option (List Message) :=
  match call.op, (s.perform call).1 with
  | .beginTurn id .., .began _ history => if id = conversationId then some history else none
  | .messages id, .listed messages => if id = conversationId then some messages else none
  | _, _ => none

/-- The message lists of a conversation, in the order of their calls. -/
def returnedLists (s : InMemoryConversationStore) (conversationId : UUID) :
    List ConversationCall → List (List Message)
  | [] => []
  | call :: calls =>
    (s.returned conversationId call).toList ++
      (s.perform call).2.returnedLists conversationId calls

end InMemoryConversationStore

/-! ## What a call can do -/

namespace InMemoryConversationStore

variable {s : InMemoryConversationStore}

/-- The turn that `begin_turn` appends. -/
def newTurn (now : Time) (conversation : Conversation) (conversationId runId : UUID)
    (userMessage : String) : ConversationTurn :=
  { conversationId := conversationId
    sequence := conversation.version + 1
    runId := runId
    userMessage := userMessage
    createdAt := now
    updatedAt := now }

/-- The turn as `finish_turn` leaves it. -/
def finishedTurn (now : Time) (turn : ConversationTurn) (status : RunStatus)
    (assistantMessage : Option String) : ConversationTurn :=
  { turn with
    status := status
    assistantMessage :=
      if status = .completed ∧ assistantMessage = none then some "" else assistantMessage
    updatedAt := now }

theorem createConversation_ok {s' : InMemoryConversationStore} {conversation : Conversation}
    (h : s.createConversation conversation = .ok s') :
    s.conversations conversation.id = none ∧ s' = s.setConversation conversation.id conversation := by
  unfold createConversation at h
  obtain ⟨_, hnew, h⟩ := Except.bind_ok.mp h
  cases h
  refine ⟨?_, rfl⟩
  simpa using hnew

theorem requireIdle_ok {conversationId : UUID} {conversation : Conversation} {u : Unit}
    (h : requireIdle conversationId conversation = .ok u) : conversation.activeRunId = none := by
  unfold requireIdle at h
  split at h
  · assumption
  · cases h

theorem beginTurn_ok {now : Time} {conversationId runId : UUID} {profileId userMessage : String}
    {turn : ConversationTurn} {history : List Message} {s' : InMemoryConversationStore}
    (h : s.beginTurn now conversationId runId profileId userMessage = .ok (turn, history, s')) :
    ∃ conversation, s.conversations conversationId = some conversation ∧
      conversation.activeRunId = none ∧ history = s.messagesLocked conversationId ∧
      s' = (s.setTurns conversationId (s.turns conversationId ++
          [newTurn now conversation conversationId runId userMessage])).setConversation
        conversationId
        { conversation with
          version := conversation.version + 1
          activeRunId := some runId
          updatedAt := now } := by
  unfold beginTurn at h
  obtain ⟨_, -, h⟩ := Except.bind_ok.mp h
  obtain ⟨conversation, hfound, h⟩ := Except.bind_ok.mp h
  obtain ⟨_, -, h⟩ := Except.bind_ok.mp h
  obtain ⟨_, hidle, h⟩ := Except.bind_ok.mp h
  cases h
  exact ⟨conversation, by simpa [getLocked] using hfound, requireIdle_ok hidle, rfl, rfl⟩

theorem finishTurn_ok {now : Time} {conversationId runId : UUID} {status : RunStatus}
    {assistantMessage : Option String} {updated : ConversationTurn}
    {s' : InMemoryConversationStore}
    (h : s.finishTurn now conversationId runId status assistantMessage = .ok (updated, s')) :
    ∃ conversation turn, s.conversations conversationId = some conversation ∧
      conversation.activeRunId = some runId ∧ status ≠ .created ∧ status ≠ .running ∧
      (s.turns conversationId).find? (·.runId = runId) = some turn ∧
      s'.turns = (s.setTurns conversationId ((s.turns conversationId).set
        ((s.turns conversationId).findIdx (·.runId = runId))
        (finishedTurn now turn status assistantMessage))).turns ∧
      s'.conversations =
        if status = .waiting then s.conversations
        else (s.setConversation conversationId
          { conversation with activeRunId := none, updatedAt := now }).conversations := by
  unfold finishTurn at h
  obtain ⟨_, hstatus, h⟩ := Except.bind_ok.mp h
  obtain ⟨conversation, hfound, h⟩ := Except.bind_ok.mp h
  obtain ⟨turn, hturn, h⟩ := Except.bind_ok.mp h
  obtain ⟨_, hactive, h⟩ := Except.bind_ok.mp h
  cases h
  simp only [raiseIf_ok, not_or] at hstatus
  refine ⟨conversation, turn, by simpa [getLocked] using hfound, by simpa using hactive,
    hstatus.1, hstatus.2, by simpa using hturn, ?_, ?_⟩
  · split <;> rfl
  · split <;> rfl

end InMemoryConversationStore

/-! ## The history of one conversation -/

/-- The turns of a conversation whose active Run is `runId`: the last one is its turn and is
not settled, the ones before are settled and belong to other Runs. -/
def EndsOpen (runId : UUID) (turns : List ConversationTurn) : Prop :=
  ∃ settled turn, turns = settled ++ [turn] ∧ turn.runId = runId ∧ turn.status.terminal = false ∧
    ∀ t ∈ settled, t.status.terminal = true ∧ t.runId ≠ runId

/-- The turns of a conversation agree with its record. -/
structure Recorded (conversation : Conversation) (turns : List ConversationTurn) : Prop where
  version : conversation.version = turns.length
  sequences : turns.map (·.sequence) = List.range' 1 turns.length
  idle : conversation.activeRunId = none → ∀ t ∈ turns, t.status.terminal = true
  active : ∀ runId, conversation.activeRunId = some runId → EndsOpen runId turns

/-- The turns before the first that is not settled. -/
def settledTurns (turns : List ConversationTurn) : List ConversationTurn :=
  turns.takeWhile (·.status.terminal)

theorem settledTurns_append_open {settled : List ConversationTurn} {turn : ConversationTurn}
    (hsettled : ∀ t ∈ settled, t.status.terminal = true) (hopen : turn.status.terminal = false) :
    settledTurns (settled ++ [turn]) = settled := by
  unfold settledTurns
  rw [List.takeWhile_append_of_pos hsettled]
  simp [hopen]

theorem settledTurns_of_terminal {turns : List ConversationTurn}
    (h : ∀ t ∈ turns, t.status.terminal = true) : settledTurns turns = turns := by
  unfold settledTurns
  exact List.takeWhile_eq_self_iff.mpr h

namespace Recorded

variable {conversation : Conversation} {turns : List ConversationTurn}

theorem new (conversation : Conversation) (hversion : conversation.version = 0)
    (hactive : conversation.activeRunId = none) : Recorded conversation [] where
  version := hversion
  sequences := rfl
  idle := by simp
  active := by simp [hactive]

theorem messages (h : Recorded conversation turns) :
    turns.flatMap (·.messages) = (settledTurns turns).flatMap (·.messages) := by
  cases hactive : conversation.activeRunId with
  | none => rw [settledTurns_of_terminal (h.idle hactive)]
  | some runId =>
    obtain ⟨settled, turn, rfl, -, hopen, hsettled⟩ := h.active runId hactive
    rw [settledTurns_append_open (fun t ht => (hsettled t ht).1) hopen, List.flatMap_append]
    have hnone : turn.messages = [] := by
      unfold ConversationTurn.messages
      rw [if_neg]
      intro hcompleted
      simp [hcompleted, RunStatus.terminal] at hopen
    simp [hnone]

theorem began (h : Recorded conversation turns) (hidle : conversation.activeRunId = none)
    {runId : UUID} (hfresh : ∀ t ∈ turns, t.runId ≠ runId) (conversationId : UUID) (now : Time)
    (userMessage : String) :
    Recorded
      { conversation with
        version := conversation.version + 1
        activeRunId := some runId
        updatedAt := now }
      (turns ++ [InMemoryConversationStore.newTurn now conversation conversationId runId
        userMessage]) where
  version := by simp [h.version]
  sequences := by
    rw [List.map_append, h.sequences, List.length_append, List.length_singleton,
      List.range'_concat]
    simp [InMemoryConversationStore.newTurn, h.version, Nat.add_comm]
  idle := by simp
  active := by
    intro active hactive
    cases hactive
    exact ⟨turns, _, rfl, rfl, rfl, fun t ht => ⟨h.idle hidle t ht, hfresh t ht⟩⟩

end Recorded

theorem EndsOpen.set {runId : UUID} {turns : List ConversationTurn} (h : EndsOpen runId turns)
    (f : ConversationTurn → ConversationTurn) :
    ∃ settled turn, turns = settled ++ [turn] ∧ turn.runId = runId ∧
      (∀ t ∈ settled, t.status.terminal = true ∧ t.runId ≠ runId) ∧
      turns.find? (·.runId = runId) = some turn ∧
      turns.set (turns.findIdx (·.runId = runId)) (f turn) = settled ++ [f turn] ∧
      settledTurns turns = settled := by
  obtain ⟨settled, turn, rfl, hrun, hopen, hsettled⟩ := h
  have hother : ∀ t ∈ settled, ¬ (decide (t.runId = runId)) = true := by
    intro t ht
    simpa using (hsettled t ht).2
  refine ⟨settled, turn, rfl, hrun, hsettled, ?_, ?_, ?_⟩
  · rw [List.find?_append, List.find?_eq_none.mpr hother]
    simp [hrun]
  · have hindex : (settled ++ [turn]).findIdx (·.runId = runId) = settled.length := by
      rw [List.findIdx_append, List.findIdx_eq_length_of_false (by simpa using hother)]
      simp [hrun]
    rw [hindex]
    simp
  · exact settledTurns_append_open (fun t ht => (hsettled t ht).1) hopen

theorem Recorded.finished {conversation : Conversation} {turns : List ConversationTurn}
    (h : Recorded conversation turns) {runId : UUID} (hactive : conversation.activeRunId = some runId)
    {turn : ConversationTurn} (hturn : turns.find? (·.runId = runId) = some turn) (now : Time)
    {status : RunStatus} (hcreated : status ≠ .created) (hrunning : status ≠ .running)
    (assistantMessage : Option String) :
    Recorded
      (if status = .waiting then conversation
        else { conversation with activeRunId := none, updatedAt := now })
      (turns.set (turns.findIdx (·.runId = runId))
        (InMemoryConversationStore.finishedTurn now turn status assistantMessage)) ∧
    settledTurns turns <+: settledTurns (turns.set (turns.findIdx (·.runId = runId))
      (InMemoryConversationStore.finishedTurn now turn status assistantMessage)) := by
  obtain ⟨settled, found, hturns, hrun, hsettled, hfound, hset, hkept⟩ :=
    (h.active runId hactive).set
      (InMemoryConversationStore.finishedTurn now · status assistantMessage)
  rw [hfound, Option.some.injEq] at hturn
  subst hturn
  rw [hset, hkept]
  have hsequences : (settled ++ [InMemoryConversationStore.finishedTurn now found status
      assistantMessage]).map (·.sequence) = List.range' 1 (settled.length + 1) := by
    have hold := h.sequences
    rw [hturns] at hold
    simpa [InMemoryConversationStore.finishedTurn] using hold
  have hversion : conversation.version = settled.length + 1 := by
    rw [h.version, hturns]
    simp
  have hterminal : ∀ t ∈ settled, t.status.terminal = true := fun t ht => (hsettled t ht).1
  by_cases hwaiting : status = .waiting
  · subst hwaiting
    rw [if_pos rfl]
    constructor
    · constructor
      · simpa using hversion
      · simpa using hsequences
      · simp [hactive]
      · intro active hactive'
        rw [hactive] at hactive'
        cases hactive'
        exact ⟨settled, _, rfl, hrun, rfl, hsettled⟩
    · rw [settledTurns_append_open hterminal rfl]
  · rw [if_neg hwaiting]
    have hstatus : status.terminal = true := by
      cases status <;> simp_all [RunStatus.terminal]
    have hall : ∀ t ∈ settled ++ [InMemoryConversationStore.finishedTurn now found status
        assistantMessage], t.status.terminal = true := by
      intro t ht
      cases List.mem_append.mp ht with
      | inl hold => exact hterminal t hold
      | inr hnew =>
        rw [List.mem_singleton.mp hnew]
        exact hstatus
    constructor
    · constructor
      · simpa using hversion
      · simpa using hsequences
      · exact fun _ => hall
      · simp
    · rw [settledTurns_of_terminal hall]
      exact List.prefix_append _ _

/-! ## Every conversation of the store -/

/-- Every conversation agrees with its turns, and turns belong to conversations. -/
structure Coherent (s : InMemoryConversationStore) : Prop where
  unknown : ∀ id, s.conversations id = none → s.turns id = []
  recorded : ∀ id conversation, s.conversations id = some conversation →
    Recorded conversation (s.turns id)

namespace InMemoryConversationStore

/-- No turn of the conversation belongs to the Run that begins in it.  A conversation whose
Run is still active refuses the turn. -/
def fresh (s : InMemoryConversationStore) : ConversationOp → Bool
  | .beginTurn conversationId runId _ _ =>
    match s.conversations conversationId with
    | some conversation =>
      conversation.activeRunId.isSome || (s.turns conversationId).all (·.runId ≠ runId)
    | none => true
  | _ => true

/-- Every turn of the calls begins under a fresh identifier. -/
def freshCalls (s : InMemoryConversationStore) : List ConversationCall → Bool
  | [] => true
  | call :: calls => s.fresh call.op && (s.perform call).2.freshCalls calls

/-- The settled turns of every conversation of `s` are the first settled turns of `s'`. -/
def Extends (s s' : InMemoryConversationStore) : Prop :=
  ∀ id, settledTurns (s.turns id) <+: settledTurns (s'.turns id)

theorem Extends.refl (s : InMemoryConversationStore) : s.Extends s :=
  fun _ => List.prefix_refl _

theorem Extends.trans {s s' s'' : InMemoryConversationStore} (h : s.Extends s')
    (h' : s'.Extends s'') : s.Extends s'' :=
  fun id => (h id).trans (h' id)

end InMemoryConversationStore

namespace Coherent

open InMemoryConversationStore

variable {s s' : InMemoryConversationStore}

theorem changed (h : Coherent s) {id : UUID} {conversation : Conversation}
    (hturns : ∀ other, other ≠ id → s'.turns other = s.turns other)
    (hconversations : ∀ other, other ≠ id → s'.conversations other = s.conversations other)
    (hconversation : s'.conversations id = some conversation)
    (hrecorded : Recorded conversation (s'.turns id))
    (hextends : settledTurns (s.turns id) <+: settledTurns (s'.turns id)) :
    Coherent s' ∧ s.Extends s' := by
  constructor
  · constructor
    · intro other hnone
      by_cases hother : other = id
      · subst hother
        rw [hconversation] at hnone
        cases hnone
      · rw [hturns other hother]
        exact h.unknown other (by rw [← hconversations other hother, hnone])
    · intro other found hfound
      by_cases hother : other = id
      · subst hother
        rw [hconversation, Option.some.injEq] at hfound
        rw [← hfound]
        exact hrecorded
      · rw [hturns other hother]
        exact h.recorded other found (by rw [← hconversations other hother, hfound])
  · intro other
    by_cases hother : other = id
    · rw [hother]
      exact hextends
    · rw [hturns other hother]

theorem createConversation (h : Coherent s) {conversation : Conversation}
    (hversion : conversation.version = 0) (hactive : conversation.activeRunId = none)
    (hcreate : s.createConversation conversation = .ok s') : Coherent s' ∧ s.Extends s' := by
  obtain ⟨hnew, rfl⟩ := createConversation_ok hcreate
  have hnone := h.unknown _ hnew
  refine h.changed (fun _ _ => rfl) (fun other hother => Function.update_of_ne hother _ _)
    (Function.update_self ..) ?_ (List.prefix_refl _)
  show Recorded conversation (s.turns conversation.id)
  rw [hnone]
  exact Recorded.new conversation hversion hactive

theorem beginTurn (h : Coherent s) {now : Time} {conversationId runId : UUID}
    {profileId userMessage : String} {turn : ConversationTurn} {history : List Message}
    (hfresh : s.fresh (.beginTurn conversationId runId profileId userMessage) = true)
    (hbegin : s.beginTurn now conversationId runId profileId userMessage =
      .ok (turn, history, s')) : Coherent s' ∧ s.Extends s' := by
  obtain ⟨conversation, hfound, hidle, -, rfl⟩ := beginTurn_ok hbegin
  have hrecorded := h.recorded conversationId conversation hfound
  have hother : ∀ t ∈ s.turns conversationId, t.runId ≠ runId := by
    simp only [fresh, hfound, hidle] at hfresh
    simpa using hfresh
  refine h.changed (fun other hother => Function.update_of_ne hother _ _)
    (fun other hother => Function.update_of_ne hother _ _) (Function.update_self ..) ?_ ?_
  · have hbegan := hrecorded.began hidle hother conversationId now userMessage
    simpa [setTurns, setConversation] using hbegan
  · simp only [setTurns, setConversation, Function.update_self]
    rw [settledTurns_append_open (hrecorded.idle hidle) rfl,
      settledTurns_of_terminal (hrecorded.idle hidle)]

theorem finishTurn (h : Coherent s) {now : Time} {conversationId runId : UUID}
    {status : RunStatus} {assistantMessage : Option String} {updated : ConversationTurn}
    (hfinish : s.finishTurn now conversationId runId status assistantMessage =
      .ok (updated, s')) : Coherent s' ∧ s.Extends s' := by
  obtain ⟨conversation, turn, hfound, hactive, hcreated, hrunning, hturn, hturns, hconversations⟩ :=
    finishTurn_ok hfinish
  obtain ⟨hrecorded, hextends⟩ := (h.recorded conversationId conversation hfound).finished hactive
    hturn now hcreated hrunning assistantMessage
  have hset : s'.turns conversationId = (s.turns conversationId).set
      ((s.turns conversationId).findIdx (·.runId = runId))
      (finishedTurn now turn status assistantMessage) := by
    rw [hturns]
    exact Function.update_self ..
  rw [← hset] at hrecorded hextends
  refine h.changed ?_ ?_ ?_ hrecorded hextends
  · intro other hother
    rw [hturns]
    exact Function.update_of_ne hother _ _
  · intro other hother
    rw [hconversations]
    split
    · rfl
    · exact Function.update_of_ne hother _ _
  · rw [hconversations]
    split
    · exact hfound
    · exact Function.update_self ..

theorem perform (h : Coherent s) {call : ConversationCall} (hfresh : s.fresh call.op = true) :
    Coherent (s.perform call).2 ∧ s.Extends (s.perform call).2 := by
  have hsame : Coherent s ∧ s.Extends s := ⟨h, .refl s⟩
  unfold InMemoryConversationStore.perform
  split
  · split
    · rename_i hcreate
      exact h.createConversation rfl rfl hcreate
    · exact hsame
  · rename_i hop
    rw [hop] at hfresh
    split
    · rename_i hbegin
      exact h.beginTurn hfresh hbegin
    · exact hsame
  · split
    · rename_i hfinish
      exact h.finishTurn hfinish
    · exact hsame
  · split <;> exact hsame

theorem after (h : Coherent s) {calls : List ConversationCall}
    (hfresh : s.freshCalls calls = true) :
    Coherent (s.after calls) ∧ s.Extends (s.after calls) := by
  induction calls generalizing s with
  | nil => exact ⟨h, .refl s⟩
  | cons call calls ih =>
    simp only [freshCalls, Bool.and_eq_true] at hfresh
    obtain ⟨hstep, hextends⟩ := h.perform hfresh.1
    obtain ⟨hrest, hmore⟩ := ih hstep hfresh.2
    exact ⟨hrest, hextends.trans hmore⟩

theorem messagesLocked (h : Coherent s) (id : UUID) :
    s.messagesLocked id = (settledTurns (s.turns id)).flatMap (·.messages) := by
  cases hfound : s.conversations id with
  | none =>
    simp [InMemoryConversationStore.messagesLocked, h.unknown id hfound, settledTurns]
  | some conversation => exact (h.recorded id conversation hfound).messages

theorem messages_prefix (h : Coherent s) (h' : Coherent s') (hextends : s.Extends s') (id : UUID) :
    s.messagesLocked id <+: s'.messagesLocked id := by
  rw [h.messagesLocked, h'.messagesLocked]
  obtain ⟨more, hmore⟩ := hextends id
  rw [← hmore, List.flatMap_append]
  exact List.prefix_append _ _

end Coherent

namespace InMemoryConversationStore

theorem returned_eq {s : InMemoryConversationStore} {id : UUID} {call : ConversationCall}
    {messages : List Message} (h : s.returned id call = some messages) :
    messages = s.messagesLocked id := by
  unfold returned at h
  split at h
  · rename_i began runId profileId userMessage turn history hop hreply
    split at h
    · rename_i hid
      cases h
      subst hid
      simp only [perform, hop] at hreply
      split at hreply
      · rename_i hbegin
        obtain ⟨_, _, _, hhistory, _⟩ := beginTurn_ok hbegin
        cases hreply
        exact hhistory
      · cases hreply
    · cases h
  · rename_i listed found hop hreply
    split at h
    · rename_i hid
      cases h
      subst hid
      simp only [perform, hop] at hreply
      split at hreply
      · rename_i hlisted
        cases hreply
        unfold InMemoryConversationStore.messages at hlisted
        obtain ⟨_, -, hlisted⟩ := Except.bind_ok.mp hlisted
        cases hlisted
        rfl
      · cases hreply
    · cases h
  · cases h

/-- Every list that is returned later starts with the list of the store now. -/
theorem prefix_returnedLists {s : InMemoryConversationStore} (h : Coherent s)
    {calls : List ConversationCall} (hfresh : s.freshCalls calls = true) (id : UUID) :
    ∀ messages ∈ s.returnedLists id calls, s.messagesLocked id <+: messages := by
  induction calls generalizing s with
  | nil => simp [returnedLists]
  | cons call calls ih =>
    simp only [freshCalls, Bool.and_eq_true] at hfresh
    obtain ⟨hstep, hextends⟩ := h.perform hfresh.1
    intro messages hmessages
    cases List.mem_append.mp hmessages with
    | inl hnow =>
      rw [returned_eq (Option.mem_toList.mp hnow)]
    | inr hlater =>
      exact (h.messages_prefix hstep hextends id).trans (ih hstep hfresh.2 messages hlater)

theorem returnedLists_pairwise {s : InMemoryConversationStore} (h : Coherent s)
    {calls : List ConversationCall} (hfresh : s.freshCalls calls = true) (id : UUID) :
    (s.returnedLists id calls).Pairwise (· <+: ·) := by
  induction calls generalizing s with
  | nil => exact List.Pairwise.nil
  | cons call calls ih =>
    simp only [freshCalls, Bool.and_eq_true] at hfresh
    obtain ⟨hstep, hextends⟩ := h.perform hfresh.1
    unfold returnedLists
    refine List.pairwise_append.mpr ⟨?_, ih hstep hfresh.2, ?_⟩
    · cases s.returned id call <;> simp
    · intro messages hnow later hlater
      rw [returned_eq (Option.mem_toList.mp hnow)]
      exact (h.messages_prefix hstep hextends id).trans
        (prefix_returnedLists hstep hfresh.2 id later hlater)

theorem after_append (s : InMemoryConversationStore) (before later : List ConversationCall) :
    s.after (before ++ later) = (s.after before).after later := by
  induction before generalizing s with
  | nil => rfl
  | cons call before ih => exact ih _

theorem freshCalls_append (s : InMemoryConversationStore) (before later : List ConversationCall) :
    s.freshCalls (before ++ later) =
      (s.freshCalls before && (s.after before).freshCalls later) := by
  induction before generalizing s with
  | nil => rfl
  | cons call before ih => simp [freshCalls, after, ih, Bool.and_assoc]

end InMemoryConversationStore

theorem Coherent.found {s : InMemoryConversationStore} (h : Coherent s) {id : UUID} {i : Nat}
    {turn : ConversationTurn} (hturn : (s.turns id)[i]? = some turn) :
    ∃ conversation, s.conversations id = some conversation ∧
      Recorded conversation (s.turns id) := by
  cases hfound : s.conversations id with
  | none =>
    rw [h.unknown id hfound] at hturn
    cases hturn
  | some conversation => exact ⟨conversation, rfl, h.recorded id conversation hfound⟩

theorem Coherent.empty : Coherent {} where
  unknown := fun _ _ => rfl
  recorded := fun _ _ h => by cases h

theorem getElem?_of_settledTurns {turns later : List ConversationTurn} {i : Nat}
    {turn : ConversationTurn} (h : settledTurns turns <+: settledTurns later)
    (hturn : (settledTurns turns)[i]? = some turn) : later[i]? = some turn := by
  obtain ⟨hi, hget⟩ := List.getElem?_eq_some_iff.mp hturn
  have hlater : settledTurns turns <+: later := h.trans (List.takeWhile_prefix _)
  obtain ⟨more, hmore⟩ := hlater
  rw [← hmore, List.getElem?_append_left hi]
  exact hturn

/-- A turn of a recorded conversation is settled history or the open one at its end. -/
theorem Recorded.turn_cases {conversation : Conversation} {turns : List ConversationTurn}
    (h : Recorded conversation turns) {i : Nat} {turn : ConversationTurn}
    (hturn : turns[i]? = some turn) :
    (turn.status.terminal = true ∧ (settledTurns turns)[i]? = some turn) ∨
      (turn.status.terminal = false ∧ i + 1 = turns.length ∧
        conversation.activeRunId = some turn.runId) := by
  cases hactive : conversation.activeRunId with
  | none =>
    have hall := h.idle hactive
    rw [settledTurns_of_terminal hall]
    exact .inl ⟨hall turn (List.mem_of_getElem? hturn), hturn⟩
  | some runId =>
    obtain ⟨settled, last, rfl, hrun, hopen, hsettled⟩ := h.active runId hactive
    have hterminal : ∀ t ∈ settled, t.status.terminal = true := fun t ht => (hsettled t ht).1
    rw [settledTurns_append_open hterminal hopen]
    by_cases hi : i < settled.length
    · rw [List.getElem?_append_left hi] at hturn
      exact .inl ⟨hterminal turn (List.mem_of_getElem? hturn), hturn⟩
    · obtain ⟨hlength, -⟩ := List.getElem?_eq_some_iff.mp hturn
      have hlast : i = settled.length := by
        simp only [List.length_append, List.length_singleton] at hlength
        omega
      subst hlast
      simp only [List.getElem?_concat_length, Option.some.injEq] at hturn
      subst hturn
      exact .inr ⟨hopen, by simp, by rw [hrun]⟩

/-- For every sequence of calls in which no turn begins under the identifier of an earlier
turn of its conversation, the history is append-only. -/
theorem conversation_history_append_only (calls : List ConversationCall)
    (hfresh : InMemoryConversationStore.freshCalls {} calls = true) (id : UUID) :
    (InMemoryConversationStore.returnedLists {} id calls).Pairwise (· <+: ·) ∧
    (∀ before, before <+: calls →
      ∀ (i : Nat) (turn : ConversationTurn),
        ((InMemoryConversationStore.after {} before).turns id)[i]? = some turn →
        turn.status.terminal = true →
        ((InMemoryConversationStore.after {} calls).turns id)[i]? = some turn) ∧
    (∀ (i : Nat) (turn : ConversationTurn),
      ((InMemoryConversationStore.after {} calls).turns id)[i]? = some turn →
      turn.status.terminal = false →
      i + 1 = ((InMemoryConversationStore.after {} calls).turns id).length) ∧
    ((∃ turn ∈ (InMemoryConversationStore.after {} calls).turns id, turn.status.terminal = false) ↔
      ∃ conversation runId,
        (InMemoryConversationStore.after {} calls).conversations id = some conversation ∧
        conversation.activeRunId = some runId) ∧
    ((InMemoryConversationStore.after {} calls).turns id).map (·.sequence) =
      List.range' 1 ((InMemoryConversationStore.after {} calls).turns id).length := by
  obtain ⟨hcoherent, -⟩ := Coherent.empty.after hfresh
  refine ⟨InMemoryConversationStore.returnedLists_pairwise .empty hfresh id, ?_, ?_, ?_, ?_⟩
  · intro before hbefore i turn hturn hterminal
    obtain ⟨later, rfl⟩ := hbefore
    rw [InMemoryConversationStore.freshCalls_append, Bool.and_eq_true] at hfresh
    obtain ⟨hthen, -⟩ := Coherent.empty.after hfresh.1
    obtain ⟨-, hextends⟩ := hthen.after hfresh.2
    rw [InMemoryConversationStore.after_append]
    obtain ⟨conversation, -, hrecorded⟩ := hthen.found hturn
    cases hrecorded.turn_cases hturn with
    | inl hsettled => exact getElem?_of_settledTurns (hextends id) hsettled.2
    | inr hopen =>
      rw [hterminal] at hopen
      cases hopen.1
  · intro i turn hturn hopen
    obtain ⟨conversation, -, hrecorded⟩ := hcoherent.found hturn
    cases hrecorded.turn_cases hturn with
    | inl hsettled =>
      rw [hopen] at hsettled
      cases hsettled.1
    | inr hlast => exact hlast.2.1
  · constructor
    · intro hexists
      obtain ⟨turn, hmem, hopen⟩ := hexists
      obtain ⟨i, hturn⟩ := List.mem_iff_getElem?.mp hmem
      obtain ⟨conversation, hfound, hrecorded⟩ := hcoherent.found hturn
      cases hrecorded.turn_cases hturn with
      | inl hsettled =>
        rw [hopen] at hsettled
        cases hsettled.1
      | inr hlast => exact ⟨conversation, turn.runId, hfound, hlast.2.2⟩
    · intro hexists
      obtain ⟨conversation, runId, hfound, hactive⟩ := hexists
      obtain ⟨settled, turn, hturns, -, hopen, -⟩ :=
        (hcoherent.recorded id conversation hfound).active runId hactive
      exact ⟨turn, by simp [hturns], hopen⟩
  · cases hfound : (InMemoryConversationStore.after {} calls).conversations id with
    | none => simp [hcoherent.unknown id hfound]
    | some conversation => exact (hcoherent.recorded id conversation hfound).sequences

/-- A turn waits for input, goes on and completes, and the next one fails. -/
def twoTurns : List ConversationCall :=
  [⟨0, .create 1 "assistant"⟩, ⟨1, .beginTurn 1 0 "assistant" "Pay the bill."⟩,
    ⟨2, .finishTurn 1 0 .waiting none⟩, ⟨3, .finishTurn 1 0 .completed (some "Done.")⟩,
    ⟨4, .messages 1⟩, ⟨5, .beginTurn 1 7 "assistant" "Again."⟩, ⟨6, .finishTurn 1 7 .failed none⟩,
    ⟨7, .messages 1⟩]

theorem conversation_history_append_only_two_turns :
    (InMemoryConversationStore.returnedLists {} 1 twoTurns).map (·.length) = [0, 2, 2, 2] ∧
    (InMemoryConversationStore.returnedLists {} 1 twoTurns).Pairwise (· <+: ·) ∧
    ((InMemoryConversationStore.after {} twoTurns).turns 1).map (·.status) =
      [.completed, .failed] ∧
    ((InMemoryConversationStore.after {} twoTurns).turns 1).map (·.sequence) = [1, 2] := by
  have hkept := conversation_history_append_only twoTurns (by decide) 1
  exact ⟨by decide, hkept.1, by decide, hkept.2.2.2.2⟩

/-! ## A Run identifier that is used twice -/

/-- The conversation, the Run and the status of an operation on a turn.  A turn begins
without one. -/
def turnOperation : RuntimeEntry Bool → Option (UUID × UUID × Option RunStatus)
  | ⟨_, .beginTurn conversationId runId _, _⟩ => some (conversationId, runId, none)
  | ⟨_, .finishTurn conversationId runId status, _⟩ => some (conversationId, runId, some status)
  | _ => none

def ConversationOp.operation : ConversationOp → Option (UUID × UUID × Option RunStatus)
  | .beginTurn conversationId runId _ _ => some (conversationId, runId, none)
  | .finishTurn conversationId runId status _ => some (conversationId, runId, some status)
  | _ => none

/-- Two Runs, one after the other, of the same caller-supplied identifier in one
conversation. -/
def reusedRun : RuntimePool Bool :=
  (startCalls (plainAgent []) 5 (fun _ => .run "Hello." 0 (some 1) []) {}).run
    (plainEnv (fun _ => { content := some "Done.", valid := ModelResponse.done_valid })
      fun _ => .value .null).exec
    (List.replicate 30 false ++ List.replicate 30 true)

def reusedTurns : List ConversationCall :=
  [⟨0, .create 1 "assistant"⟩, ⟨1, .beginTurn 1 0 "assistant" "Hello."⟩,
    ⟨2, .finishTurn 1 0 .completed (some "Done.")⟩, ⟨3, .beginTurn 1 0 "assistant" "Hello."⟩,
    ⟨4, .finishTurn 1 0 .failed none⟩]

set_option maxRecDepth 20000 in
/-- The second Run is refused because the first exists, and the exception handler then
marks the first, completed turn as failed.  The turn of the second stays running, with no
active Run. -/
theorem reused_run_rewrites_turn :
    reusedRun.log.filterMap turnOperation = reusedTurns.filterMap (·.op.operation) ∧
    ((InMemoryConversationStore.after {} (reusedTurns.take 3)).turns 1).map (·.status) =
      [.completed] ∧
    ((InMemoryConversationStore.after {} reusedTurns).turns 1).map (·.status) =
      [.failed, .running] ∧
    ((InMemoryConversationStore.after {} (reusedTurns.take 3)).messagesLocked 1).length = 2 ∧
    (InMemoryConversationStore.after {} reusedTurns).messagesLocked 1 = [] ∧
    ((InMemoryConversationStore.after {} reusedTurns).conversations 1).bind (·.activeRunId) =
      none := by
  refine ⟨by decide, by decide, by decide, by decide, ?_, ?_⟩
  · exact List.eq_nil_of_length_eq_zero (by decide)
  · decide

end Runtime
end BaseAgent
