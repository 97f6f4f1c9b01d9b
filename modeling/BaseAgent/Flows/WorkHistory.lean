import BaseAgent.Flows.Delivery

/-!
# The history of a work item

What an operation finds was left there by earlier ones.  Over runs of any operations: which
enqueueings leave the stored items and their keys alone, that a blocked item is left by one
recorded review at a time, and what the token that an item keeps says about its last delivery.
-/

namespace BaseAgent
namespace Flows

open InMemoryFlowWorkSource (workNotFound deliveryLost)

theorem WorkRun.source_of_append (calls : List WorkCall) (call : WorkCall) :
    (WorkRun.of (calls ++ [call])).source = ((WorkRun.of calls).source.perform call).2 := by
  rw [WorkRun.of_append]
  rfl

theorem InMemoryFlowWorkSource.Keyed.perform {source : InMemoryFlowWorkSource} (h : source.Keyed)
    (call : WorkCall) : (source.perform call).2.Keyed := by
  cases InMemoryFlowWorkSource.perform_cases h call with
  | inl hsame =>
    rw [hsame.1]
    exact h
  | inr hchanged =>
    obtain ⟨workId, new, hchanged⟩ := hchanged
    exact h.changed hchanged

/-- What a new source has and every operation keeps, every run has. -/
theorem WorkRun.reached {P : InMemoryFlowWorkSource → Prop} (hnew : P {})
    (hstep : ∀ source call, source.Keyed → P source → P (source.perform call).2)
    (calls : List WorkCall) : (WorkRun.of calls).source.Keyed ∧ P (WorkRun.of calls).source := by
  induction calls using List.reverseRecOn with
  | nil => exact ⟨⟨List.nodup_nil, fun _ _ h => (by cases h)⟩, hnew⟩
  | append_singleton calls call ih =>
    rw [WorkRun.source_of_append]
    exact ⟨ih.1.perform call, hstep _ call ih.1 ih.2⟩

theorem WorkRun.keyed (calls : List WorkCall) : (WorkRun.of calls).source.Keyed :=
  (WorkRun.reached (P := fun _ => True) trivial (fun _ _ _ _ => trivial) calls).1

theorem ItemChange.command {now : Time} {op : WorkOp} {old : Option FlowWorkItem}
    {new : FlowWorkItem} (h : ItemChange now op old new) (hop : ∀ command, op ≠ .enqueue command) :
    ∃ item, old = some item ∧ new.command = item.command := by
  cases h with
  | enqueued command => exact absurd rfl (hop command)
  | claimed token ownerId ttl item hclaimable => exact ⟨item, rfl, rfl⟩
  | renewed workId token ttl item hdeliver => exact ⟨item, rfl, rfl⟩
  | completed workId token item hdeliver => exact ⟨item, rfl, rfl⟩
  | blocked workId token reasonCode item hdeliver => exact ⟨item, rfl, rfl⟩
  | retried workId token delay errorType item hdeliver => exact ⟨item, rfl, rfl⟩
  | reviewed review item hblocked =>
    refine ⟨item, rfl, ?_⟩
    unfold FlowWorkItem.applyReview
    split <;> rfl

/-! ## Enqueueing -/

namespace InMemoryFlowWorkSource

variable {source : InMemoryFlowWorkSource} {call : WorkCall}

/-- The command repeats a key, or no item has its identifier. -/
def Admits (source : InMemoryFlowWorkSource) (command : FlowWorkCommand) : Prop :=
  dictGet source.idempotency command.idempotencyKey ≠ none ∨ source.item command.id = none

/-- Every key finds an item whose command has the key. -/
def KeysResolve (source : InMemoryFlowWorkSource) : Prop :=
  ∀ key workId, dictGet source.idempotency key = some workId →
    ∃ item, source.item workId = some item ∧ item.command.idempotencyKey = key

def Indexed (source : InMemoryFlowWorkSource) : Prop :=
  ∀ workId item, source.item workId = some item →
    dictGet source.idempotency item.command.idempotencyKey = some workId

def Misdirected (source : InMemoryFlowWorkSource) : Prop :=
  ∃ key workId item, dictGet source.idempotency key = some workId ∧
    source.item workId = some item ∧ item.command.idempotencyKey ≠ key

/-- An operation leaves items and keys as they were, stores the item of a command under a new
key, or changes an item and keeps its command. -/
theorem perform_keys (h : source.Keyed) (call : WorkCall) :
    (source.perform call).2 = source ∨
    (∃ command new, call.op = .enqueue command ∧ new.command = command ∧
      dictGet source.idempotency command.idempotencyKey = none ∧
      (∀ other, (source.perform call).2.item other =
        if other = command.id then some new else source.item other) ∧
      ∀ key, dictGet (source.perform call).2.idempotency key =
        if key = command.idempotencyKey then some command.id else dictGet source.idempotency key) ∨
    ∃ workId old new, (∀ command, call.op ≠ .enqueue command) ∧
      source.item workId = some old ∧ new.command = old.command ∧
      (∀ other, (source.perform call).2.item other =
        if other = workId then some new else source.item other) ∧
      (source.perform call).2.idempotency = source.idempotency := by
  cases perform_cases h call with
  | inl hsame => exact .inl hsame.1
  | inr hchanged =>
    right
    obtain ⟨workId, new, hchanged⟩ := hchanged
    by_cases henqueue : ∃ command, call.op = .enqueue command
    · left
      obtain ⟨command, hop⟩ := henqueue
      have hid : command.id = workId := hchanged.about command.id (by rw [hop]; rfl)
      have hcommand : new.command = command := by
        have hchange := hchanged.change
        rw [hop] at hchange
        cases hchange
        rfl
      refine ⟨command, new, hop, hcommand, hchanged.unknown command hop, ?_, ?_⟩
      · rw [hid]
        exact hchanged.item
      · intro key
        rw [hchanged.idempotency, hop, hid]
        exact dictGet_set _ _ _ _
    · right
      have hop : ∀ command, call.op ≠ .enqueue command := fun command hop => henqueue ⟨command, hop⟩
      obtain ⟨old, hold, hcommand⟩ := hchanged.change.command hop
      refine ⟨workId, old, new, hop, hold, hcommand, hchanged.item, ?_⟩
      rw [hchanged.idempotency]
      split
      · rename_i command heq
        exact absurd heq (hop command)
      · rfl

theorem Indexed.perform (h : source.Indexed) (hkeyed : source.Keyed) (call : WorkCall) :
    (source.perform call).2.Indexed := by
  rcases perform_keys hkeyed call with
    hsame | ⟨command, new, -, hcommand, hnone, hitems, hkeys⟩ |
      ⟨workId, old, new, -, hold, hcommand, hitems, hkeys⟩
  · rw [hsame]
    exact h
  · intro other item hitem
    rw [hitems] at hitem
    rw [hkeys]
    by_cases hother : other = command.id
    · rw [if_pos hother] at hitem
      rw [← Option.some.inj hitem, hcommand, if_pos rfl, hother]
    · rw [if_neg hother] at hitem
      have hindexed := h other item hitem
      have hne : item.command.idempotencyKey ≠ command.idempotencyKey := by
        intro heq
        rw [heq, hnone] at hindexed
        cases hindexed
      rw [if_neg hne]
      exact hindexed
  · intro other item hitem
    rw [hitems] at hitem
    rw [hkeys]
    by_cases hother : other = workId
    · rw [if_pos hother] at hitem
      rw [← Option.some.inj hitem, hcommand, hother]
      exact h workId old hold
    · rw [if_neg hother] at hitem
      exact h other item hitem

theorem indexed (calls : List WorkCall) : (WorkRun.of calls).source.Indexed :=
  (WorkRun.reached (fun _ _ h => by cases h) (fun _ call hkeyed h => h.perform hkeyed call) calls).2

theorem Misdirected.perform (h : source.Misdirected) (hkeyed : source.Keyed) (call : WorkCall) :
    (source.perform call).2.Misdirected := by
  obtain ⟨key, workId, item, hkey, hitem, hne⟩ := h
  rcases perform_keys hkeyed call with
    hsame | ⟨command, new, -, hcommand, hnone, hitems, hkeys⟩ |
      ⟨changed, old, new, -, hold, hcommand, hitems, hkeys⟩
  · rw [hsame]
    exact ⟨key, workId, item, hkey, hitem, hne⟩
  · have hother : key ≠ command.idempotencyKey := by
      intro heq
      rw [heq, hnone] at hkey
      cases hkey
    have hfound : dictGet (source.perform call).2.idempotency key = some workId := by
      rw [hkeys, if_neg hother]
      exact hkey
    by_cases hid : workId = command.id
    · refine ⟨key, workId, new, hfound, ?_, ?_⟩
      · rw [hitems, if_pos hid]
      · rw [hcommand]
        exact hother.symm
    · refine ⟨key, workId, item, hfound, ?_, hne⟩
      rw [hitems, if_neg hid]
      exact hitem
  · have hfound : dictGet (source.perform call).2.idempotency key = some workId := by
      rw [hkeys]
      exact hkey
    by_cases hid : workId = changed
    · refine ⟨key, workId, new, hfound, ?_, ?_⟩
      · rw [hitems, if_pos hid]
      · rw [← hid, hitem] at hold
        rw [hcommand, ← Option.some.inj hold]
        exact hne
    · refine ⟨key, workId, item, hfound, ?_, hne⟩
      rw [hitems, if_neg hid]
      exact hitem

theorem Misdirected.not_resolve (h : source.Misdirected) : ¬ source.KeysResolve := by
  intro hresolve
  obtain ⟨key, workId, item, hkey, hitem, hne⟩ := h
  obtain ⟨found, hfound, heq⟩ := hresolve key workId hkey
  rw [hitem] at hfound
  rw [← Option.some.inj hfound] at heq
  exact hne heq

/-- An admitted enqueueing keeps every item, and the keys find their items. -/
theorem KeysResolve.perform (h : source.KeysResolve) (hkeyed : source.Keyed)
    (hadmits : ∀ command, call.op = .enqueue command → source.Admits command) :
    (source.perform call).2.KeysResolve := by
  rcases perform_keys hkeyed call with
    hsame | ⟨command, new, hop, hcommand, hnone, hitems, hkeys⟩ |
      ⟨changed, old, new, -, hold, hcommand, hitems, hkeys⟩
  · rw [hsame]
    exact h
  · have habsent : source.item command.id = none := by
      cases hadmits command hop with
      | inl hknown => exact absurd hnone hknown
      | inr habsent => exact habsent
    intro key workId hkey
    rw [hkeys] at hkey
    rw [hitems]
    by_cases hother : key = command.idempotencyKey
    · rw [if_pos hother] at hkey
      rw [if_pos (Option.some.inj hkey).symm]
      exact ⟨new, rfl, by rw [hcommand, hother]⟩
    · rw [if_neg hother] at hkey
      obtain ⟨item, hitem, heq⟩ := h key workId hkey
      have hid : workId ≠ command.id := by
        intro hid
        rw [hid, habsent] at hitem
        cases hitem
      rw [if_neg hid]
      exact ⟨item, hitem, heq⟩
  · intro key workId hkey
    rw [hkeys] at hkey
    obtain ⟨item, hitem, heq⟩ := h key workId hkey
    rw [hitems]
    by_cases hid : workId = changed
    · rw [if_pos hid]
      rw [← hid, hitem] at hold
      exact ⟨new, rfl, by rw [hcommand, ← Option.some.inj hold, heq]⟩
    · rw [if_neg hid]
      exact ⟨item, hitem, heq⟩

end InMemoryFlowWorkSource

/-- Every enqueueing of the run repeats a key or brings a new identifier. -/
def EnqueuesAdmitted (calls : List WorkCall) : Prop :=
  ∀ before call after command, calls = before ++ call :: after → call.op = .enqueue command →
    (WorkRun.of before).source.Admits command

/-- How a list that ends in `last` falls apart around one of its elements. -/
theorem append_singleton_split {α : Type} {init before after : List α} {last a : α}
    (h : init ++ [last] = before ++ a :: after) :
    (before = init ∧ a = last ∧ after = []) ∨
      ∃ rest, after = rest ++ [last] ∧ init = before ++ a :: rest := by
  induction after using List.reverseRecOn with
  | nil =>
    obtain ⟨hinit, hlast⟩ := List.append_inj' h rfl
    exact .inl ⟨hinit.symm, (List.cons.inj hlast).1.symm, rfl⟩
  | append_singleton rest x _ =>
    right
    have hassoc : before ++ a :: (rest ++ [x]) = (before ++ a :: rest) ++ [x] := by simp
    rw [hassoc] at h
    obtain ⟨hinit, hlast⟩ := List.append_inj' h rfl
    exact ⟨rest, by rw [(List.cons.inj hlast).1], hinit⟩

theorem enqueuesAdmitted_append {calls : List WorkCall} {call : WorkCall} :
    EnqueuesAdmitted (calls ++ [call]) ↔ EnqueuesAdmitted calls ∧
      ∀ command, call.op = .enqueue command → (WorkRun.of calls).source.Admits command := by
  constructor
  · intro h
    constructor
    · intro before earlier after command hsplit hop
      refine h before earlier (after ++ [call]) command ?_ hop
      rw [hsplit]
      simp
    · intro command hop
      exact h calls call [] command rfl hop
  · intro h before earlier after command hsplit hop
    cases append_singleton_split hsplit with
    | inl hlast =>
      obtain ⟨rfl, rfl, -⟩ := hlast
      exact h.2 command hop
    | inr hrest =>
      obtain ⟨rest, -, hcalls⟩ := hrest
      exact h.1 before earlier rest command hcalls hop

theorem EnqueuesAdmitted.keysResolve {calls : List WorkCall} (h : EnqueuesAdmitted calls) :
    (WorkRun.of calls).source.KeysResolve := by
  induction calls using List.reverseRecOn with
  | nil =>
    intro key workId hkey
    cases hkey
  | append_singleton calls call ih =>
    rw [enqueuesAdmitted_append] at h
    rw [WorkRun.source_of_append]
    exact (ih h.1).perform (WorkRun.keyed calls) h.2

/-- A command with a new key is stored over the item that has its identifier. -/
theorem InMemoryFlowWorkSource.misdirected_of_not_admits {source : InMemoryFlowWorkSource}
    (hindexed : source.Indexed) (now : Time) {command : FlowWorkCommand}
    (h : ¬ source.Admits command) : (source.enqueue now command).2.Misdirected := by
  simp only [Admits, not_or, not_not] at h
  obtain ⟨hnone, hstored⟩ := h
  obtain ⟨old, hold⟩ := Option.ne_none_iff_exists'.mp hstored
  have hkey := hindexed command.id old hold
  have hne : old.command.idempotencyKey ≠ command.idempotencyKey := by
    intro heq
    rw [heq, hnone] at hkey
    cases hkey
  have henqueue : (source.enqueue now command).2 =
      { source.setItem command.id { command := command, availableAt := now, updatedAt := now } with
        idempotency := dictSet source.idempotency command.idempotencyKey command.id } := by
    unfold enqueue
    rw [hnone]
    rfl
  refine ⟨old.command.idempotencyKey, command.id,
    { command := command, availableAt := now, updatedAt := now }, ?_, ?_, hne.symm⟩
  · rw [henqueue]
    show dictGet (dictSet _ _ _) _ = _
    rw [dictGet_set_ne _ hne]
    exact hkey
  · rw [henqueue]
    exact dictGet_set_self _ _ _

theorem misdirected_of_not_admitted {calls : List WorkCall} (h : ¬ EnqueuesAdmitted calls) :
    (WorkRun.of calls).source.Misdirected := by
  induction calls using List.reverseRecOn with
  | nil =>
    refine absurd ?_ h
    intro before call after command hsplit
    simp at hsplit
  | append_singleton calls call ih =>
    rw [WorkRun.source_of_append]
    by_cases hearlier : EnqueuesAdmitted calls
    · rw [enqueuesAdmitted_append] at h
      simp only [not_and, not_forall] at h
      obtain ⟨command, hop, hrefused⟩ := h hearlier
      have hlost := InMemoryFlowWorkSource.misdirected_of_not_admits
        (InMemoryFlowWorkSource.indexed calls) call.now hrefused
      unfold InMemoryFlowWorkSource.perform
      rw [hop]
      exact hlost
    · exact (ih hearlier).perform (WorkRun.keyed calls) call

/-- An admitted command is stored beside the items that are there. -/
theorem InMemoryFlowWorkSource.Admits.keeps {source : InMemoryFlowWorkSource} (now : Time)
    {command : FlowWorkCommand} (h : source.Admits command) {workId : UUID} {item : FlowWorkItem}
    (hitem : source.item workId = some item) :
    (source.enqueue now command).2.item workId = some item := by
  unfold enqueue
  split
  · split
    · exact hitem
    · split
      · exact hitem
      · exact hitem
  · rename_i hnone
    have habsent : source.item command.id = none := by
      cases h with
      | inl hknown => exact absurd hnone hknown
      | inr habsent => exact habsent
    have hne : workId ≠ command.id := by
      intro heq
      rw [heq, habsent] at hitem
      cases hitem
    exact (dictGet_set_ne _ hne _).trans hitem

/-- After any run, an enqueueing leaves every stored item alone and all keys finding their items
exactly when it and every earlier one repeated a key or brought a new identifier. -/
theorem enqueue_keeps_work (calls : List WorkCall) (now : Time) (command : FlowWorkCommand) :
    ((∀ workId item, (WorkRun.of calls).source.item workId = some item →
        ((WorkRun.of calls).source.enqueue now command).2.item workId = some item) ∧
      ((WorkRun.of calls).source.enqueue now command).2.KeysResolve) ↔
    EnqueuesAdmitted (calls ++ [⟨now, .enqueue command⟩]) := by
  have hsource : (WorkRun.of (calls ++ [⟨now, .enqueue command⟩])).source =
      ((WorkRun.of calls).source.enqueue now command).2 := WorkRun.source_of_append _ _
  constructor
  · intro h
    by_contra hrefused
    have hlost := misdirected_of_not_admitted hrefused
    rw [hsource] at hlost
    exact hlost.not_resolve h.2
  · intro h
    have hresolve := h.keysResolve
    rw [hsource] at hresolve
    rw [enqueuesAdmitted_append] at h
    exact ⟨fun workId item hitem => (h.2 command rfl).keeps now hitem, hresolve⟩

/-- A second command with the identifier of the first and a key of its own. -/
theorem enqueue_overwrites_work :
    ¬ ∀ (calls : List WorkCall) (now : Time) (command : FlowWorkCommand),
      (∀ workId item, (WorkRun.of calls).source.item workId = some item →
        ((WorkRun.of calls).source.enqueue now command).2.item workId = some item) ∧
      ((WorkRun.of calls).source.enqueue now command).2.KeysResolve := by
  intro h
  have hresolve := (h [⟨0, .enqueue { id := 1, runId := 7, idempotencyKey := "first" }⟩] 1
    { id := 1, runId := 7, idempotencyKey := "second" }).2
  obtain ⟨item, hitem, hkey⟩ := hresolve "first" 1 (by decide)
  have hfound : (some item).map (·.command.idempotencyKey) = some "second" := by
    rw [← hitem]
    decide
  rw [Option.map_some, hkey] at hfound
  exact absurd hfound (by decide)

/-! ## Repeated settlements -/

/-- The last call that changed the item, and the calls before it. -/
def LastChange (calls : List WorkCall) (workId : UUID) (before : List WorkCall) (call : WorkCall) :
    Prop :=
  ∃ after, calls = before ++ call :: after ∧
    (WorkRun.of (before ++ [call])).source.item workId ≠ (WorkRun.of before).source.item workId ∧
    ∀ earlier later, after = earlier ++ later →
      (WorkRun.of (before ++ call :: earlier)).source.item workId =
        (WorkRun.of (before ++ [call])).source.item workId

namespace LastChange

variable {calls before : List WorkCall} {workId : UUID} {call last : WorkCall}

/-- Since the last change the item is what that change made it. -/
theorem item (h : LastChange calls workId before last) :
    (WorkRun.of calls).source.item workId =
      (WorkRun.of (before ++ [last])).source.item workId := by
  obtain ⟨after, hcalls, -, hsince⟩ := h
  rw [hcalls]
  exact hsince after [] (List.append_nil after).symm

theorem here (h : (WorkRun.of (calls ++ [call])).source.item workId ≠
    (WorkRun.of calls).source.item workId) : LastChange (calls ++ [call]) workId calls call := by
  refine ⟨[], rfl, h, ?_⟩
  intro earlier later hnil
  rw [(List.append_eq_nil_iff.mp hnil.symm).1]

theorem kept (h : LastChange calls workId before last)
    (hsame : (WorkRun.of (calls ++ [call])).source.item workId =
      (WorkRun.of calls).source.item workId) : LastChange (calls ++ [call]) workId before last := by
  have hitem := h.item
  obtain ⟨after, hcalls, hchange, hsince⟩ := h
  refine ⟨after ++ [call], by rw [hcalls]; simp, hchange, ?_⟩
  intro earlier later hsplit
  induction later using List.reverseRecOn with
  | nil =>
    rw [List.append_nil] at hsplit
    have hall : before ++ last :: earlier = calls ++ [call] := by
      rw [← hsplit, hcalls]
      simp
    rw [hall, hsame, hitem]
  | append_singleton later x _ =>
    rw [← List.append_assoc] at hsplit
    exact hsince earlier later (List.append_inj' hsplit rfl).1

/-- The last change is the last call, or the last call changed nothing. -/
theorem cases_append (h : LastChange (calls ++ [call]) workId before last) :
    (before = calls ∧ last = call) ∨
      (LastChange calls workId before last ∧
        (WorkRun.of (calls ++ [call])).source.item workId =
          (WorkRun.of calls).source.item workId) := by
  have hitem := h.item
  obtain ⟨after, hcalls, hchange, hsince⟩ := h
  cases append_singleton_split hcalls with
  | inl hlast => exact .inl ⟨hlast.1, hlast.2.1⟩
  | inr hrest =>
    obtain ⟨rest, hafter, hbefore⟩ := hrest
    have hearlier : LastChange calls workId before last := by
      refine ⟨rest, hbefore, hchange, ?_⟩
      intro earlier later hsplit
      refine hsince earlier (later ++ [call]) ?_
      rw [hafter, hsplit, List.append_assoc]
    exact .inr ⟨hearlier, hitem.trans hearlier.item.symm⟩

theorem unique {before' : List WorkCall} {last' : WorkCall} (h : LastChange calls workId before last)
    (h' : LastChange calls workId before' last') : before = before' ∧ last = last' := by
  induction calls using List.reverseRecOn with
  | nil =>
    obtain ⟨after, hcalls, -⟩ := h
    simp at hcalls
  | append_singleton calls call ih =>
    have hchanged : ∀ {earlier}, LastChange (calls ++ [call]) workId calls earlier →
        earlier = call → (WorkRun.of (calls ++ [call])).source.item workId ≠
          (WorkRun.of calls).source.item workId := by
      intro earlier hlast heq
      obtain ⟨-, -, hchange, -⟩ := hlast
      rw [heq] at hchange
      exact hchange
    rcases h.cases_append with ⟨hb, hc⟩ | ⟨hearlier, hsame⟩
    · rcases h'.cases_append with ⟨hb', hc'⟩ | ⟨-, hsame'⟩
      · exact ⟨hb.trans hb'.symm, hc.trans hc'.symm⟩
      · rw [hb] at h
        exact absurd hsame' (hchanged h hc)
    · rcases h'.cases_append with ⟨hb', hc'⟩ | ⟨hearlier', -⟩
      · rw [hb'] at h'
        exact absurd hsame (hchanged h' hc')
      · exact ih hearlier hearlier'

end LastChange

namespace WorkOp

def settlement : WorkOp → Option (UUID × UUID × FlowWorkStatus)
  | complete workId token => some (workId, token, .completed)
  | block workId token _ => some (workId, token, .blocked)
  | retry workId token _ _ => some (workId, token, .pending)
  | _ => none

def argumentsValid : WorkOp → Prop
  | block _ _ reasonCode => validateReasonCode reasonCode = .ok ()
  | retry _ _ delaySeconds errorType => validateRetryArguments delaySeconds errorType = .ok ()
  | _ => True

end WorkOp

/-- The delivery of the token was ended by a settlement of this kind, and the item has not been
changed since. -/
def SettledSince (calls : List WorkCall) (workId token : UUID) (status : FlowWorkStatus) : Prop :=
  ∃ before call, LastChange calls workId before call ∧
    call.op.settlement = some (workId, token, status)

/-- The delivery of the token was ended by a block, an operator has approved a retry, and the item
has not been changed since. -/
def ApprovedSince (calls : List WorkCall) (workId token : UUID) : Prop :=
  ∃ before call review item, LastChange calls workId before call ∧ call.op = .review review ∧
    review.decision = .approveRetry ∧ (WorkRun.of before).source.item workId = some item ∧
    item.lastDeliveryToken = some token

/-- An operation that changed an item is one of the item's changes. -/
theorem InMemoryFlowWorkSource.Keyed.changes {source : InMemoryFlowWorkSource} (h : source.Keyed)
    {call : WorkCall} {workId : UUID}
    (hchange : (source.perform call).2.item workId ≠ source.item workId) :
    ∃ new, ItemChange call.now call.op (source.item workId) new ∧
      (source.perform call).2.item workId = some new := by
  cases InMemoryFlowWorkSource.perform_cases h call with
  | inl hsame =>
    rw [hsame.1] at hchange
    exact absurd rfl hchange
  | inr hchanged =>
    obtain ⟨changed, new, hchanged⟩ := hchanged
    rw [hchanged.item] at hchange ⊢
    by_cases hid : workId = changed
    · rw [if_pos hid, hid]
      exact ⟨new, hchanged.change, rfl⟩
    · rw [if_neg hid] at hchange
      exact absurd rfl hchange

namespace ItemChange

variable {now : Time} {op : WorkOp} {old : Option FlowWorkItem} {new : FlowWorkItem}

theorem settlement (h : ItemChange now op old new) {workId token : UUID} {status : FlowWorkStatus}
    (hop : op.settlement = some (workId, token, status)) :
    new.status = status ∧ new.lastDeliveryToken = some token := by
  have htoken : ∀ item : FlowWorkItem, ∀ token, item.delivering token now = true →
      item.deliveryToken = some token := by
    intro item token hdeliver
    simp only [FlowWorkItem.delivering, decide_eq_true_eq] at hdeliver
    exact hdeliver.2.1
  cases h with
  | enqueued command => cases hop
  | claimed token ownerId ttl item hclaimable => cases hop
  | renewed workId token ttl item hdeliver => cases hop
  | completed workId token item hdeliver =>
    cases hop
    exact ⟨rfl, htoken item token hdeliver⟩
  | blocked workId token reasonCode item hdeliver =>
    cases hop
    exact ⟨rfl, htoken item token hdeliver⟩
  | retried workId token delay errorType item hdeliver =>
    cases hop
    exact ⟨rfl, htoken item token hdeliver⟩
  | reviewed review item hblocked => cases hop

/-- A changed item that is not delivered and keeps a token was settled under that token, or its
block was approved for a retry. -/
theorem keeps_token (h : ItemChange now op old new) {token : UUID}
    (htoken : new.lastDeliveryToken = some token) (hclaimed : new.status ≠ .claimed)
    (hdiscarded : new.status ≠ .discarded) {workId : UUID}
    (habout : ∀ target, op.about = some target → target = workId) :
    op.settlement = some (workId, token, new.status) ∨
    (new.status = .pending ∧ ∃ review item, op = .review review ∧
      review.decision = .approveRetry ∧ old = some item ∧ item.lastDeliveryToken = some token) := by
  have hheld : ∀ (item : FlowWorkItem) (held : UUID), item.delivering held now = true →
      item.status = .claimed ∧ item.deliveryToken = some held := by
    intro item held hdeliver
    simp only [FlowWorkItem.delivering, decide_eq_true_eq] at hdeliver
    exact ⟨hdeliver.1, hdeliver.2.1⟩
  cases h with
  | enqueued command => cases htoken
  | claimed drawn ownerId ttl item hclaimable => exact absurd rfl hclaimed
  | renewed target held ttl item hdeliver => exact absurd (hheld item held hdeliver).1 hclaimed
  | completed target held item hdeliver =>
    have hsame : item.deliveryToken = some token := htoken
    rw [(hheld item held hdeliver).2] at hsame
    rw [← habout target rfl, ← Option.some.inj hsame]
    exact .inl rfl
  | blocked target held reasonCode item hdeliver =>
    have hsame : item.deliveryToken = some token := htoken
    rw [(hheld item held hdeliver).2] at hsame
    rw [← habout target rfl, ← Option.some.inj hsame]
    exact .inl rfl
  | retried target held delay errorType item hdeliver =>
    have hsame : item.deliveryToken = some token := htoken
    rw [(hheld item held hdeliver).2] at hsame
    rw [← habout target rfl, ← Option.some.inj hsame]
    exact .inl rfl
  | reviewed review item hblocked =>
    cases hdecision : review.decision with
    | approveRetry =>
      simp only [FlowWorkItem.applyReview, hdecision] at htoken
      refine .inr ⟨?_, review, item, rfl, hdecision, rfl, htoken⟩
      simp only [FlowWorkItem.applyReview, hdecision]
    | reject =>
      simp only [FlowWorkItem.applyReview, hdecision] at hdiscarded
      exact absurd rfl hdiscarded

end ItemChange

section Settled

variable {calls : List WorkCall} {workId token : UUID} {status : FlowWorkStatus}

theorem SettledSince.item (h : SettledSince calls workId token status) :
    ∃ item, (WorkRun.of calls).source.item workId = some item ∧ item.status = status ∧
      item.lastDeliveryToken = some token := by
  obtain ⟨before, call, hlast, hop⟩ := h
  have hitem := hlast.item
  obtain ⟨-, -, hchange, -⟩ := hlast
  rw [WorkRun.source_of_append] at hchange hitem
  obtain ⟨new, hnew, hstored⟩ := (WorkRun.keyed before).changes hchange
  obtain ⟨hstatus, htoken⟩ := hnew.settlement hop
  exact ⟨new, hitem.trans hstored, hstatus, htoken⟩

theorem ApprovedSince.item (h : ApprovedSince calls workId token) :
    ∃ item, (WorkRun.of calls).source.item workId = some item ∧ item.status = .pending ∧
      item.lastDeliveryToken = some token := by
  obtain ⟨before, call, review, old, hlast, hop, hdecision, hold, htoken⟩ := h
  have hitem := hlast.item
  obtain ⟨-, -, hchange, -⟩ := hlast
  rw [WorkRun.source_of_append] at hchange hitem
  obtain ⟨new, hnew, hstored⟩ := (WorkRun.keyed before).changes hchange
  have hreviewed : new = old.applyReview call.now review := by
    rw [hold, hop] at hnew
    cases hnew
    rfl
  refine ⟨new, hitem.trans hstored, ?_, ?_⟩
  · simp only [hreviewed, FlowWorkItem.applyReview, hdecision]
  · simp only [hreviewed, FlowWorkItem.applyReview, hdecision]
    exact htoken

theorem ApprovedSince.not_settled (h : ApprovedSince calls workId token) :
    ¬ SettledSince calls workId token status := by
  obtain ⟨before, call, review, old, hlast, hop, -⟩ := h
  intro hsettled
  obtain ⟨before', call', hlast', hop'⟩ := hsettled
  rw [← (hlast.unique hlast').2, hop] at hop'
  cases hop'

/-- An item that is not delivered and keeps a token got it in one of these two ways. -/
theorem settled_or_approved {item : FlowWorkItem}
    (hitem : (WorkRun.of calls).source.item workId = some item)
    (htoken : item.lastDeliveryToken = some token) (hclaimed : item.status ≠ .claimed)
    (hdiscarded : item.status ≠ .discarded) :
    SettledSince calls workId token item.status ∨
      (item.status = .pending ∧ ApprovedSince calls workId token) := by
  induction calls using List.reverseRecOn with
  | nil => cases hitem
  | append_singleton calls call ih =>
    by_cases hsame : (WorkRun.of (calls ++ [call])).source.item workId =
        (WorkRun.of calls).source.item workId
    · rw [hsame] at hitem
      rcases ih hitem with ⟨before, last, hlast, hop⟩ | ⟨hpending, happroved⟩
      · exact .inl ⟨before, last, hlast.kept hsame, hop⟩
      · obtain ⟨before, last, review, old, hlast, hrest⟩ := happroved
        exact .inr ⟨hpending, before, last, review, old, hlast.kept hsame, hrest⟩
    · have hlast : LastChange (calls ++ [call]) workId calls call := LastChange.here hsame
      rw [WorkRun.source_of_append] at hsame hitem
      cases InMemoryFlowWorkSource.perform_cases (WorkRun.keyed calls) call with
      | inl hunchanged =>
        rw [hunchanged.1] at hsame
        exact absurd rfl hsame
      | inr hchanged =>
        obtain ⟨changed, new, hchanged⟩ := hchanged
        rw [hchanged.item] at hsame hitem
        by_cases hid : workId = changed
        · rw [if_pos hid] at hitem
          rw [Option.some.inj hitem] at hchanged
          rw [← hid] at hchanged
          rcases hchanged.change.keeps_token htoken hclaimed hdiscarded hchanged.about with
            hop | ⟨hpending, review, old, hop, hdecision, hold, hkept⟩
          · exact .inl ⟨calls, call, hlast, hop⟩
          · exact .inr ⟨hpending, calls, call, review, old, hlast, hop, hdecision, hold, hkept⟩
        · rw [if_neg hid] at hsame
          exact absurd rfl hsame

end Settled

theorem InMemoryFlowWorkSource.perform_settlement (source : InMemoryFlowWorkSource) {call : WorkCall}
    {workId token : UUID} {status : FlowWorkStatus}
    (hop : call.op.settlement = some (workId, token, status)) (hvalid : call.op.argumentsValid) :
    ∃ settled, source.perform call =
      Prod.map (·.map .item) id (source.settle call.now workId token status settled) := by
  obtain ⟨now, op⟩ := call
  cases op with
  | complete target held =>
    cases hop
    exact ⟨_, rfl⟩
  | block target held reasonCode =>
    cases hop
    refine ⟨fun current => current.block now reasonCode, ?_⟩
    have hvalid : validateReasonCode reasonCode = .ok () := hvalid
    simp only [InMemoryFlowWorkSource.perform, InMemoryFlowWorkSource.block, hvalid]
  | retry target held delay errorType =>
    cases hop
    refine ⟨fun current => current.retry now delay errorType, ?_⟩
    have hvalid : validateRetryArguments delay errorType = .ok () := hvalid
    simp only [InMemoryFlowWorkSource.perform, InMemoryFlowWorkSource.retry, hvalid]
  | enqueue command => cases hop
  | claim drawn ownerId ttl => cases hop
  | renew target held ttl => cases hop
  | review review => cases hop

/-- A settlement under a token that does not deliver the item: it repeats the status that the
token's own delivery ended with, or the delivery is lost. -/
def ReplaysExactly (calls : List WorkCall) (call : WorkCall) (workId token : UUID)
    (status : FlowWorkStatus) : Prop :=
  (SettledSince calls workId token status →
    ∃ item, (WorkRun.of calls).source.perform call =
      (.ok (.item item), (WorkRun.of calls).source)) ∧
  (¬ SettledSince calls workId token status →
    (WorkRun.of calls).source.perform call =
      (.error (deliveryLost workId), (WorkRun.of calls).source))

/-- After any run, a settlement under a token that does not deliver the item replays exactly,
unless it is a retry of an item that the token blocked and an operator approved for a retry. -/
theorem settlement_replays_exactly (calls : List WorkCall) (call : WorkCall) (workId token : UUID)
    (status : FlowWorkStatus) (item : FlowWorkItem)
    (hop : call.op.settlement = some (workId, token, status)) (hvalid : call.op.argumentsValid)
    (hitem : (WorkRun.of calls).source.item workId = some item)
    (hlost : item.delivering token call.now = false) :
    ReplaysExactly calls call workId token status ↔
      ¬ (status = .pending ∧ ApprovedSince calls workId token) := by
  obtain ⟨settled, hperform⟩ :=
    (WorkRun.of calls).source.perform_settlement hop hvalid
  have hreplay : (item.status = status ∧ item.lastDeliveryToken = some token) →
      (WorkRun.of calls).source.perform call =
        (.ok (.item item), (WorkRun.of calls).source) := by
    intro hsame
    rw [hperform]
    simp only [InMemoryFlowWorkSource.settle, hitem, if_pos hsame]
    rfl
  have hrefused : ¬ (item.status = status ∧ item.lastDeliveryToken = some token) →
      (WorkRun.of calls).source.perform call =
        (.error (deliveryLost workId), (WorkRun.of calls).source) := by
    intro hother
    rw [hperform]
    simp only [InMemoryFlowWorkSource.settle, hitem, if_neg hother, hlost, Bool.false_eq_true,
      if_false]
    rfl
  constructor
  · intro hexact happroved
    obtain ⟨hstatus, happroved⟩ := happroved
    obtain ⟨found, hfound, hpending, htoken⟩ := happroved.item
    rw [hitem] at hfound
    rw [← Option.some.inj hfound] at hpending htoken
    have herror := hexact.2 happroved.not_settled
    rw [hreplay ⟨hpending.trans hstatus.symm, htoken⟩] at herror
    cases herror
  · intro hcondition
    constructor
    · intro hsettled
      obtain ⟨found, hfound, hstatus, htoken⟩ := hsettled.item
      rw [hitem] at hfound
      rw [← Option.some.inj hfound] at hstatus htoken
      exact ⟨item, hreplay ⟨hstatus, htoken⟩⟩
    · intro hunsettled
      apply hrefused
      intro hsame
      obtain ⟨hstatus, htoken⟩ := hsame
      -- the three statuses of a settlement are none of these two
      have hsettles : status ≠ .claimed ∧ status ≠ .discarded := by
        cases hcall : call.op <;> rw [hcall] at hop <;> cases hop <;> simp
      have hhistory := settled_or_approved hitem htoken (by rw [hstatus]; exact hsettles.1)
        (by rw [hstatus]; exact hsettles.2)
      rw [hstatus] at hhistory
      cases hhistory with
      | inl hsettled => exact hunsettled hsettled
      | inr happroved => exact hcondition happroved

def approval : FlowWorkReview :=
  { id := 3, workId := 1, decision := .approveRetry, reviewerId := "operator",
    reasonCode := "checked", idempotencyKey := "review", valid := by decide }

def approvedCalls : List WorkCall :=
  [⟨0, .enqueue { id := 1, runId := 7, idempotencyKey := "key" }⟩, ⟨0, .claim 5 "worker" 60⟩,
    ⟨1, .block 1 5 "unsafe"⟩, ⟨2, .review approval⟩]

theorem approvedCalls_stored : ((WorkRun.of approvedCalls).source.item 1).isSome = true := by
  decide +kernel

/-- A late completion of the approved item is lost. -/
theorem settlement_replays_exactly_approved :
    ReplaysExactly approvedCalls ⟨3, .complete 1 5⟩ 1 5 .completed := by
  refine (settlement_replays_exactly approvedCalls ⟨3, .complete 1 5⟩ 1 5 .completed
    (((WorkRun.of approvedCalls).source.item 1).get approvedCalls_stored) rfl trivial
    (Option.some_get _).symm (by decide +kernel)).mpr ?_
  intro happroved
  cases happroved.1

theorem approvedCalls_approvedSince : ApprovedSince approvedCalls 1 5 := by
  have hblocked : ((WorkRun.of (approvedCalls.take 3)).source.item 1).bind (·.lastDeliveryToken) =
      some 5 := by
    decide +kernel
  obtain ⟨item, hitem, htoken⟩ := Option.bind_eq_some_iff.mp hblocked
  refine ⟨approvedCalls.take 3, ⟨2, .review approval⟩, approval, item, ?_, rfl, rfl, hitem, htoken⟩
  show LastChange (approvedCalls.take 3 ++ [⟨2, .review approval⟩]) 1 (approvedCalls.take 3) _
  apply LastChange.here
  intro hsame
  have hstatus := congrArg (Option.map (·.status)) hsame
  revert hstatus
  decide +kernel

/-- The token that blocked the item retries it after the approval, and is told it did. -/
theorem settlement_replays_inexactly :
    ¬ ∀ (calls : List WorkCall) (call : WorkCall) (workId token : UUID) (status : FlowWorkStatus)
      (item : FlowWorkItem), FreshTokens calls →
      call.op.settlement = some (workId, token, status) → call.op.argumentsValid →
      (WorkRun.of calls).source.item workId = some item →
      item.delivering token call.now = false →
      ReplaysExactly calls call workId token status := by
  intro h
  have hexact := h approvedCalls ⟨3, .retry 1 5 0 none⟩ 1 5 .pending
    (((WorkRun.of approvedCalls).source.item 1).get approvedCalls_stored) (by decide) rfl
    (by decide : validateRetryArguments 0 none = .ok ()) (Option.some_get _).symm
    (by decide +kernel)
  have herror := congrArg (fun outcome => outcome.1.toOption.isSome)
    (hexact.2 approvedCalls_approvedSince.not_settled)
  revert herror
  decide +kernel

/-! ## Reviews -/

def WorkOp.enqueues : WorkOp → Bool
  | enqueue _ => true
  | _ => false

theorem ItemChange.of_blocked {now : Time} {op : WorkOp} {item new : FlowWorkItem}
    (h : ItemChange now op (some item) new) (hblocked : item.status = .blocked)
    (hop : op.enqueues = false) : ∃ review, op = .review review := by
  have hundelivered : ∀ token, ¬ item.delivering token now = true := by
    intro token hdeliver
    simp only [FlowWorkItem.delivering, decide_eq_true_eq] at hdeliver
    rw [hblocked] at hdeliver
    cases hdeliver.1
  cases h with
  | enqueued command => cases hop
  | claimed token ownerId ttl _ hclaimable => simp [FlowWorkItem.claimable, hblocked] at hclaimable
  | renewed workId token ttl _ hdeliver => exact absurd hdeliver (hundelivered token)
  | completed workId token _ hdeliver => exact absurd hdeliver (hundelivered token)
  | blocked workId token reasonCode _ hdeliver => exact absurd hdeliver (hundelivered token)
  | retried workId token delay errorType _ hdeliver => exact absurd hdeliver (hundelivered token)
  | reviewed review _ _ => exact ⟨review, rfl⟩

namespace InMemoryFlowWorkSource

variable {source : InMemoryFlowWorkSource} {call : WorkCall}

def blocked (source : InMemoryFlowWorkSource) (workId : UUID) : Bool :=
  (source.item workId).any fun item => item.status = .blocked

def reviewsOf (source : InMemoryFlowWorkSource) (workId : UUID) : List FlowWorkReview :=
  (dictGet source.reviews workId).getD []

/-- How often the calls, enqueueings apart, take the item out of BLOCKED. -/
def unblockings (workId : UUID) : InMemoryFlowWorkSource → List WorkCall → Nat
  | _, [] => 0
  | source, call :: rest =>
    (if call.op.enqueues = false ∧ source.blocked workId = true ∧
      (source.perform call).2.blocked workId = false then 1 else 0) +
      unblockings workId (source.perform call).2 rest

/-- The call is a review that the source accepts and records. -/
structure Accepts (source : InMemoryFlowWorkSource) (call : WorkCall) (review : FlowWorkReview)
    (item : FlowWorkItem) : Prop where
  op : call.op = .review review
  unused : dictGet source.reviewIdempotency review.idempotencyKey = none
  stored : source.item review.workId = some item
  id : item.id = review.workId
  blocked : item.status = .blocked
  perform : source.perform call =
    (.ok (.reviewed { review with createdAt := call.now } (item.applyReview call.now review)),
      source.addReview call.now review item)

section

variable {review stored : FlowWorkReview} {item : FlowWorkItem}

theorem perform_review (hop : call.op = .review review) : source.perform call =
    Prod.map (·.map fun found => .reviewed found.1 found.2) id (source.review call.now review) := by
  unfold InMemoryFlowWorkSource.perform
  rw [hop]

/-- A key that was used with the same intent returns the review on record. -/
theorem review_repeats (hop : call.op = .review review)
    (hkey : dictGet source.reviewIdempotency review.idempotencyKey = some stored)
    (hintent : stored.hasSameIntent review = true) (hitem : source.item stored.workId = some item) :
    source.perform call = (.ok (.reviewed stored item), source) := by
  rw [perform_review hop]
  simp only [InMemoryFlowWorkSource.review, hkey, if_pos hintent, hitem]
  rfl

theorem review_conflicts (hop : call.op = .review review)
    (hkey : dictGet source.reviewIdempotency review.idempotencyKey = some stored)
    (hintent : ¬ stored.hasSameIntent review = true) :
    source.perform call = (.error (.workReviewConflict
      s!"Flow work review idempotency key '{review.idempotencyKey}' has different intent"),
      source) := by
  rw [perform_review hop]
  simp only [InMemoryFlowWorkSource.review, hkey, if_neg hintent]
  rfl

theorem review_absent (hop : call.op = .review review)
    (hkey : dictGet source.reviewIdempotency review.idempotencyKey = none)
    (hitem : source.item review.workId = none) :
    source.perform call = (.error (workNotFound review.workId), source) := by
  rw [perform_review hop]
  simp only [InMemoryFlowWorkSource.review, hkey, hitem]
  rfl

theorem review_unblocked (hop : call.op = .review review)
    (hkey : dictGet source.reviewIdempotency review.idempotencyKey = none)
    (hitem : source.item review.workId = some item) (hblocked : item.status ≠ .blocked) :
    source.perform call = (.error (.workReviewState
      s!"Flow work item '{uuidText review.workId}' is not blocked"), source) := by
  rw [perform_review hop]
  simp only [InMemoryFlowWorkSource.review, hkey, hitem, if_neg hblocked]
  rfl

end

theorem review_cases (h : source.Keyed) {review : FlowWorkReview} (hop : call.op = .review review) :
    (∃ item, source.Accepts call review item) ∨
    (∃ stored item, dictGet source.reviewIdempotency review.idempotencyKey = some stored ∧
      source.perform call = (.ok (.reviewed stored item), source)) ∨
    ∃ e, source.perform call = (.error e, source) := by
  cases hkey : dictGet source.reviewIdempotency review.idempotencyKey with
  | some stored =>
    by_cases hintent : stored.hasSameIntent review = true
    · cases hitem : source.item stored.workId with
      | none =>
        refine .inr (.inr ⟨workNotFound stored.workId, ?_⟩)
        rw [perform_review hop]
        simp only [InMemoryFlowWorkSource.review, hkey, if_pos hintent, hitem]
        rfl
      | some item => exact .inr (.inl ⟨stored, item, rfl, review_repeats hop hkey hintent hitem⟩)
    · exact .inr (.inr ⟨_, review_conflicts hop hkey hintent⟩)
  | none =>
    cases hitem : source.item review.workId with
    | none => exact .inr (.inr ⟨_, review_absent hop hkey hitem⟩)
    | some item =>
      by_cases hblocked : item.status = .blocked
      · refine .inl ⟨item, hop, hkey, hitem, h.id _ _ hitem, hblocked, ?_⟩
        rw [perform_review hop]
        simp only [InMemoryFlowWorkSource.review, hkey, hitem, if_pos hblocked]
        rfl
      · exact .inr (.inr ⟨_, review_unblocked hop hkey hitem hblocked⟩)

theorem settle_reviews (now : Time) (workId token : UUID) (status : FlowWorkStatus)
    (settled : FlowWorkItem → FlowWorkItem) :
    (source.settle now workId token status settled).2.reviews = source.reviews ∧
      (source.settle now workId token status settled).2.reviewIdempotency =
        source.reviewIdempotency := by
  cases settle_cases source now workId token status settled with
  | inl hsame =>
    rw [hsame]
    exact ⟨rfl, rfl⟩
  | inr hwritten =>
    obtain ⟨current, -, -, heq⟩ := hwritten
    rw [heq]
    exact ⟨rfl, rfl⟩

theorem perform_reviews (h : ∀ review, call.op ≠ .review review) :
    (source.perform call).2.reviews = source.reviews ∧
      (source.perform call).2.reviewIdempotency = source.reviewIdempotency := by
  obtain ⟨now, op⟩ := call
  cases op with
  | enqueue command =>
    show (source.enqueue now command).2.reviews = _ ∧
      (source.enqueue now command).2.reviewIdempotency = _
    unfold enqueue
    split
    · split
      · exact ⟨rfl, rfl⟩
      · split
        · exact ⟨rfl, rfl⟩
        · exact ⟨rfl, rfl⟩
    · exact ⟨rfl, rfl⟩
  | claim token ownerId ttl =>
    show (source.claim now token ownerId ttl).2.reviews = _ ∧
      (source.claim now token ownerId ttl).2.reviewIdempotency = _
    unfold claim
    split
    · exact ⟨rfl, rfl⟩
    · split
      · exact ⟨rfl, rfl⟩
      · exact ⟨rfl, rfl⟩
  | renew workId token ttl =>
    show (source.renew now workId token ttl).2.reviews = _ ∧
      (source.renew now workId token ttl).2.reviewIdempotency = _
    unfold renew
    split
    · exact ⟨rfl, rfl⟩
    · split
      · exact ⟨rfl, rfl⟩
      · exact ⟨rfl, rfl⟩
  | complete workId token => exact settle_reviews now workId token .completed _
  | block workId token reasonCode =>
    show (source.block now workId token reasonCode).2.reviews = _ ∧
      (source.block now workId token reasonCode).2.reviewIdempotency = _
    unfold block
    split
    · exact ⟨rfl, rfl⟩
    · exact settle_reviews now workId token .blocked _
  | retry workId token delay errorType =>
    show (source.retry now workId token delay errorType).2.reviews = _ ∧
      (source.retry now workId token delay errorType).2.reviewIdempotency = _
    unfold retry
    split
    · exact ⟨rfl, rfl⟩
    · exact settle_reviews now workId token .pending _
  | review review => exact absurd rfl (h review)

/-- A call is an accepted review, or leaves the reviews as they are and, unless it is an
enqueueing, every blocked item too. -/
theorem perform_review_cases (h : source.Keyed) (call : WorkCall) :
    (∃ review item, source.Accepts call review item) ∨
    (((source.perform call).2.reviews = source.reviews ∧
        (source.perform call).2.reviewIdempotency = source.reviewIdempotency) ∧
      ∀ workId item, call.op.enqueues = false → source.item workId = some item →
        item.status = .blocked → (source.perform call).2.item workId = some item) := by
  by_cases hreview : ∃ review, call.op = .review review
  · obtain ⟨review, hop⟩ := hreview
    rcases review_cases h hop with ⟨item, haccepts⟩ | ⟨stored, item, -, heq⟩ | ⟨e, heq⟩
    · exact .inl ⟨review, item, haccepts⟩
    · right
      rw [heq]
      exact ⟨⟨rfl, rfl⟩, fun _ _ _ hitem _ => hitem⟩
    · right
      rw [heq]
      exact ⟨⟨rfl, rfl⟩, fun _ _ _ hitem _ => hitem⟩
  · right
    refine ⟨perform_reviews fun review hop => hreview ⟨review, hop⟩, ?_⟩
    intro workId item hop hitem hblocked
    by_contra hchange
    rw [← hitem] at hchange
    obtain ⟨new, hnew, -⟩ := h.changes hchange
    rw [hitem] at hnew
    exact hreview (hnew.of_blocked hblocked hop)

namespace Accepts

variable {review : FlowWorkReview} {item : FlowWorkItem}

theorem item_after (h : source.Accepts call review item) (other : UUID) :
    (source.perform call).2.item other =
      if other = review.workId then some (item.applyReview call.now review)
      else source.item other := by
  rw [h.perform, ← h.id]
  exact dictGet_set _ _ _ _

theorem reviewsOf_after (h : source.Accepts call review item) (other : UUID) :
    (source.perform call).2.reviewsOf other =
      if other = review.workId then source.reviewsOf other ++ [{ review with createdAt := call.now }]
      else source.reviewsOf other := by
  rw [h.perform]
  show (dictGet (dictSet _ item.id _) other).getD [] = _
  rw [dictGet_set, h.id]
  by_cases hother : other = review.workId
  · rw [if_pos hother, if_pos hother, hother]
    rfl
  · rw [if_neg hother, if_neg hother]
    rfl

theorem reviewIdempotency_after (h : source.Accepts call review item) (key : String) :
    dictGet (source.perform call).2.reviewIdempotency key =
      if key = review.idempotencyKey then some { review with createdAt := call.now }
      else dictGet source.reviewIdempotency key := by
  rw [h.perform]
  exact dictGet_set _ _ _ _

theorem unblocks (h : source.Accepts call review item) :
    (source.perform call).2.blocked review.workId = false := by
  unfold InMemoryFlowWorkSource.blocked
  rw [h.item_after, if_pos rfl]
  cases hdecision : review.decision <;> simp [FlowWorkItem.applyReview, hdecision]

end Accepts

/-- One call adds a review for each time it takes the item out of BLOCKED. -/
theorem length_reviewsOf_perform (h : source.Keyed) (call : WorkCall) (workId : UUID) :
    ((source.perform call).2.reviewsOf workId).length =
      (source.reviewsOf workId).length +
        (if call.op.enqueues = false ∧ source.blocked workId = true ∧
          (source.perform call).2.blocked workId = false then 1 else 0) := by
  rcases perform_review_cases h call with ⟨review, item, haccepts⟩ | ⟨⟨hreviews, -⟩, hkept⟩
  · rw [haccepts.reviewsOf_after]
    by_cases hid : workId = review.workId
    · have hleaves : call.op.enqueues = false ∧ source.blocked workId = true ∧
          (source.perform call).2.blocked workId = false := by
        refine ⟨by rw [haccepts.op]; rfl, ?_, by rw [hid]; exact haccepts.unblocks⟩
        unfold InMemoryFlowWorkSource.blocked
        rw [hid, haccepts.stored]
        simpa using haccepts.blocked
      rw [if_pos hid, if_pos hleaves]
      simp
    · have hstays : ¬ (call.op.enqueues = false ∧ source.blocked workId = true ∧
          (source.perform call).2.blocked workId = false) := by
        intro hleaves
        have hsame : (source.perform call).2.blocked workId = source.blocked workId := by
          unfold InMemoryFlowWorkSource.blocked
          rw [haccepts.item_after, if_neg hid]
        rw [hsame, hleaves.2.1] at hleaves
        cases hleaves.2.2
      rw [if_neg hid, if_neg hstays, Nat.add_zero]
  · have hstays : ¬ (call.op.enqueues = false ∧ source.blocked workId = true ∧
        (source.perform call).2.blocked workId = false) := by
      intro hleaves
      obtain ⟨hop, hblocked, hleft⟩ := hleaves
      unfold InMemoryFlowWorkSource.blocked at hblocked hleft
      obtain ⟨item, hitem, hstatus⟩ := (Option.any_eq_true _ _).mp hblocked
      rw [hkept workId item hop hitem (by simpa using hstatus), Option.any_some, hstatus] at hleft
      cases hleft
    rw [if_neg hstays, Nat.add_zero]
    unfold reviewsOf
    rw [hreviews]

def performAll (source : InMemoryFlowWorkSource) (calls : List WorkCall) : InMemoryFlowWorkSource :=
  calls.foldl (fun source call => (source.perform call).2) source

theorem source_of (calls : List WorkCall) :
    (WorkRun.of calls).source = performAll {} calls := by
  induction calls using List.reverseRecOn with
  | nil => rfl
  | append_singleton calls call ih =>
    rw [WorkRun.source_of_append, ih]
    unfold performAll
    rw [List.foldl_append]
    rfl

theorem length_reviewsOf_performAll (h : source.Keyed) (calls : List WorkCall) (workId : UUID) :
    ((source.performAll calls).reviewsOf workId).length =
      (source.reviewsOf workId).length + unblockings workId source calls := by
  induction calls generalizing source with
  | nil => rfl
  | cons call rest ih =>
    show (((source.perform call).2.performAll rest).reviewsOf workId).length = _
    rw [ih (h.perform call), length_reviewsOf_perform h call workId]
    exact Nat.add_assoc _ _ _

def ReviewsStored (source : InMemoryFlowWorkSource) : Prop :=
  ∀ key stored, dictGet source.reviewIdempotency key = some stored →
    source.item stored.workId ≠ none

theorem item_perform (h : source.Keyed) (call : WorkCall) {workId : UUID}
    (hitem : source.item workId ≠ none) : (source.perform call).2.item workId ≠ none := by
  cases perform_cases h call with
  | inl hsame =>
    rw [hsame.1]
    exact hitem
  | inr hchanged =>
    obtain ⟨changed, new, hchanged⟩ := hchanged
    rw [hchanged.item]
    split
    · simp
    · exact hitem

theorem ReviewsStored.perform (h : source.ReviewsStored) (hkeyed : source.Keyed) (call : WorkCall) :
    (source.perform call).2.ReviewsStored := by
  intro key stored hkey
  apply item_perform hkeyed
  rcases perform_review_cases hkeyed call with ⟨review, item, haccepts⟩ | ⟨⟨-, hsame⟩, -⟩
  · rw [haccepts.reviewIdempotency_after] at hkey
    by_cases hused : key = review.idempotencyKey
    · rw [if_pos hused] at hkey
      rw [← Option.some.inj hkey]
      show source.item review.workId ≠ none
      rw [haccepts.stored]
      simp
    · rw [if_neg hused] at hkey
      exact h key stored hkey
  · rw [hsame] at hkey
    exact h key stored hkey

theorem reviewsStored (calls : List WorkCall) : (WorkRun.of calls).source.ReviewsStored :=
  (WorkRun.reached (fun _ _ h => by cases h) (fun _ call hkeyed h => h.perform hkeyed call) calls).2

theorem reviewIdempotency_perform (h : source.Keyed) (call : WorkCall) {key : String}
    {stored : FlowWorkReview} (hkey : dictGet source.reviewIdempotency key = some stored) :
    dictGet (source.perform call).2.reviewIdempotency key = some stored := by
  rcases perform_review_cases h call with ⟨review, item, haccepts⟩ | ⟨⟨-, hsame⟩, -⟩
  · have hunused : key ≠ review.idempotencyKey := by
      intro heq
      rw [heq, haccepts.unused] at hkey
      cases hkey
    rw [haccepts.reviewIdempotency_after, if_neg hunused]
    exact hkey
  · rw [hsame]
    exact hkey

end InMemoryFlowWorkSource

/-- An earlier review had the key and was answered with `stored`. -/
def ReviewUsed (calls : List WorkCall) (key : String) (stored : FlowWorkReview) : Prop :=
  ∃ before call after review item, calls = before ++ call :: after ∧ call.op = .review review ∧
    review.idempotencyKey = key ∧
    ((WorkRun.of before).source.perform call).1 = .ok (.reviewed stored item)

theorem ReviewUsed.append {calls : List WorkCall} {key : String} {stored : FlowWorkReview}
    (h : ReviewUsed calls key stored) (call : WorkCall) : ReviewUsed (calls ++ [call]) key stored := by
  obtain ⟨before, used, after, review, item, hcalls, hrest⟩ := h
  refine ⟨before, used, after ++ [call], review, item, ?_, hrest⟩
  rw [hcalls]
  simp

theorem reviewUsed_iff {calls : List WorkCall} {key : String} {stored : FlowWorkReview} :
    ReviewUsed calls key stored ↔
      dictGet (WorkRun.of calls).source.reviewIdempotency key = some stored := by
  induction calls using List.reverseRecOn with
  | nil =>
    constructor
    · intro h
      obtain ⟨before, call, after, review, item, hcalls, -⟩ := h
      simp at hcalls
    · intro h
      cases h
  | append_singleton calls call ih =>
    have hkeyed := WorkRun.keyed calls
    rw [WorkRun.source_of_append]
    constructor
    · intro h
      obtain ⟨before, used, after, review, item, hcalls, hop, hkey, hreply⟩ := h
      cases append_singleton_split hcalls with
      | inl hlast =>
        obtain ⟨rfl, rfl, -⟩ := hlast
        rcases InMemoryFlowWorkSource.review_cases hkeyed hop with
          ⟨found, haccepts⟩ | ⟨existing, found, hexisting, heq⟩ | ⟨e, heq⟩
        · rw [haccepts.perform] at hreply
          cases hreply
          rw [haccepts.reviewIdempotency_after, if_pos hkey.symm]
        · rw [heq] at hreply ⊢
          cases hreply
          rw [← hkey]
          exact hexisting
        · rw [heq] at hreply
          cases hreply
      | inr hrest =>
        obtain ⟨rest, -, hbefore⟩ := hrest
        have hearlier : ReviewUsed calls key stored :=
          ⟨before, used, rest, review, item, hbefore, hop, hkey, hreply⟩
        exact InMemoryFlowWorkSource.reviewIdempotency_perform hkeyed call (ih.mp hearlier)
    · intro h
      rcases InMemoryFlowWorkSource.perform_review_cases hkeyed call with
        ⟨review, item, haccepts⟩ | ⟨⟨-, hsame⟩, -⟩
      · rw [haccepts.reviewIdempotency_after] at h
        by_cases hused : key = review.idempotencyKey
        · rw [if_pos hused] at h
          refine ⟨calls, call, [], review, item.applyReview call.now review, rfl, haccepts.op,
            hused.symm, ?_⟩
          rw [haccepts.perform, ← Option.some.inj h]
        · rw [if_neg hused] at h
          exact (ih.mpr h).append call
      · rw [hsame] at h
        exact (ih.mpr h).append call

/-- Over every run: an item has one review on record for each time it left BLOCKED, a blocked
item stays as it is until one review is recorded and takes it out, a review whose key was used
with the same intent is answered with the one on record, and one whose key was used otherwise or
whose item is not blocked raises; none of the last three changes anything. -/
theorem reviews_exactly_once (calls : List WorkCall) :
    (∀ workId, (WorkRun.of calls).source.item workId ≠ none →
      ∃ reviews, (WorkRun.of calls).source.listReviews workId = .ok reviews ∧
        reviews.length = InMemoryFlowWorkSource.unblockings workId {} calls) ∧
    (∀ before call after workId item, calls = before ++ call :: after →
      call.op.enqueues = false → (WorkRun.of before).source.item workId = some item →
      item.status = .blocked →
      ((WorkRun.of (before ++ [call])).source.item workId = some item ∧
        (WorkRun.of (before ++ [call])).source.listReviews workId =
          (WorkRun.of before).source.listReviews workId) ∨
      ∃ review reviews, call.op = .review review ∧ review.workId = workId ∧
        (∀ stored, ¬ ReviewUsed before review.idempotencyKey stored) ∧
        (WorkRun.of (before ++ [call])).source.item workId =
          some (item.applyReview call.now review) ∧
        (item.applyReview call.now review).status ≠ .blocked ∧
        (WorkRun.of before).source.listReviews workId = .ok reviews ∧
        (WorkRun.of (before ++ [call])).source.listReviews workId =
          .ok (reviews ++ [{ review with createdAt := call.now }])) ∧
    (∀ now review stored, ReviewUsed calls review.idempotencyKey stored →
      (stored.hasSameIntent review = true →
        ∃ item, (WorkRun.of calls).source.perform ⟨now, .review review⟩ =
          (.ok (.reviewed stored item), (WorkRun.of calls).source)) ∧
      (stored.hasSameIntent review = false →
        ∃ text, (WorkRun.of calls).source.perform ⟨now, .review review⟩ =
          (.error (.workReviewConflict text), (WorkRun.of calls).source))) ∧
    ∀ now review item, (∀ stored, ¬ ReviewUsed calls review.idempotencyKey stored) →
      (WorkRun.of calls).source.item review.workId = some item → item.status ≠ .blocked →
      ∃ text, (WorkRun.of calls).source.perform ⟨now, .review review⟩ =
        (.error (.workReviewState text), (WorkRun.of calls).source) := by
  have hlist : ∀ (source : InMemoryFlowWorkSource) workId, source.item workId ≠ none →
      source.listReviews workId = .ok (source.reviewsOf workId) := by
    intro source workId hitem
    exact if_pos (Option.isSome_iff_ne_none.mpr hitem)
  refine ⟨?_, ?_, ?_, ?_⟩
  · intro workId hitem
    refine ⟨_, hlist _ workId hitem, ?_⟩
    rw [InMemoryFlowWorkSource.source_of]
    have hcount := InMemoryFlowWorkSource.length_reviewsOf_performAll (WorkRun.keyed []) calls workId
    exact hcount.trans (Nat.zero_add _)
  · intro before call after workId item hcalls hop hitem hblocked
    have hkeyed := WorkRun.keyed before
    have hstored : (WorkRun.of before).source.item workId ≠ none := by
      rw [hitem]
      simp
    rw [WorkRun.source_of_append, hlist _ workId hstored,
      hlist _ workId (InMemoryFlowWorkSource.item_perform hkeyed call hstored)]
    rcases InMemoryFlowWorkSource.perform_review_cases hkeyed call with
      ⟨review, found, haccepts⟩ | ⟨⟨hreviews, -⟩, hkept⟩
    · rw [haccepts.item_after, haccepts.reviewsOf_after]
      by_cases hid : workId = review.workId
      · right
        have hfound : found = item := by
          have hsame := haccepts.stored
          rw [← hid, hitem] at hsame
          exact (Option.some.inj hsame).symm
        rw [if_pos hid, if_pos hid, hfound]
        refine ⟨review, _, haccepts.op, hid.symm, ?_, rfl, ?_, rfl, rfl⟩
        · intro stored hused
          rw [reviewUsed_iff, haccepts.unused] at hused
          cases hused
        · cases hdecision : review.decision <;> simp [FlowWorkItem.applyReview, hdecision]
      · left
        rw [if_neg hid, if_neg hid]
        exact ⟨hitem, rfl⟩
    · left
      refine ⟨hkept workId item hop hitem hblocked, ?_⟩
      unfold InMemoryFlowWorkSource.reviewsOf
      rw [hreviews]
  · intro now review stored hused
    rw [reviewUsed_iff] at hused
    constructor
    · intro hintent
      obtain ⟨item, hitem⟩ := Option.ne_none_iff_exists'.mp
        (InMemoryFlowWorkSource.reviewsStored calls _ stored hused)
      exact ⟨item, InMemoryFlowWorkSource.review_repeats rfl hused hintent hitem⟩
    · intro hintent
      exact ⟨_, InMemoryFlowWorkSource.review_conflicts rfl hused (by simp [hintent])⟩
  · intro now review item hunused hitem hblocked
    refine ⟨_, InMemoryFlowWorkSource.review_unblocked rfl ?_ hitem hblocked⟩
    cases hkey : dictGet (WorkRun.of calls).source.reviewIdempotency review.idempotencyKey with
    | none => rfl
    | some stored => exact absurd (reviewUsed_iff.mpr hkey) (hunused stored)

end Flows
end BaseAgent
