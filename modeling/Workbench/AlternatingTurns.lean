import Workbench.MergedRuns
import Workbench.TranscriptShape
import Workbench.WireMessages

namespace Workbench.AgentRuntime

open MergedRuns

variable {J : Type}

structure ChatMessage where
  role : Role
  content : String
  deriving DecidableEq

def ChatMessage.item (m : ChatMessage) : Message J :=
  if m.role = .user then .user m.content else .assistant m.content []

def completeTranscript (messages : List ChatMessage) : Transcript J := messages.map ChatMessage.item

def AnthropicMessage.group (m : AnthropicMessage J) : Role × List (Block J) := (m.role, m.content)

def toolUses (blocks : List (Block J)) : List String :=
  blocks.filterMap fun
    | .toolUse id _ _ => some id
    | _ => none

def openingResults : List (Block J) → List String
  | .toolResult toolUseId _ _ :: blocks => toolUseId :: openingResults blocks
  | _ => []

def opening : List (Role × List (Block J)) → List String
  | (.user, blocks) :: _ => openingResults blocks
  | _ => []

def Answered (groups : List (Role × List (Block J))) : Prop :=
  ∀ blocks rest, (.assistant, blocks) :: rest <:+ groups → toolUses blocks = opening rest

structure Acceptable (groups : List (Role × List (Block J))) : Prop where
  starts : ∃ blocks rest, groups = (.user, blocks) :: rest
  alternates : groups.IsChain (·.1 ≠ ·.1)
  filled : ∀ g ∈ groups, g.2 ≠ []
  answered : Answered groups

theorem group_emit (messages : List (AnthropicMessage J)) (role : Role) (blocks : List (Block J)) :
    (emit messages role blocks).map AnthropicMessage.group =
      put (messages.map AnthropicMessage.group) role blocks := by
  unfold emit
  cases hlast : messages.getLast? with
  | none =>
    rw [List.getLast?_eq_none_iff.mp hlast]
    rfl
  | some last =>
    obtain ⟨front, rfl⟩ := List.getLast?_eq_some_iff.mp hlast
    rw [List.map_append, List.map_singleton, put_concat]
    by_cases hrole : last.role = role
    · simp [hrole, AnthropicMessage.group]
    · simp [hrole, AnthropicMessage.group]

theorem group_rendered {transcript : Transcript J} {messages : List (AnthropicMessage J)}
    (h : toAnthropicMessages transcript = .ok messages) :
    messages.map AnthropicMessage.group = merged Message.role Message.blocks transcript := by
  rw [toAnthropicMessages_ok] at h
  rw [← Except.ok.inj h, ← foldl_put]
  exact (List.foldl_hom _ fun messages item => (group_emit messages item.role item.blocks).symm).symm

theorem toolUses_append (blocks blocks' : List (Block J)) :
    toolUses (blocks ++ blocks') = toolUses blocks ++ toolUses blocks' := List.filterMap_append

theorem Answered.user {groups : List (Role × List (Block J))} (h : Answered groups)
    (blocks : List (Block J)) : Answered (prepend .user blocks groups) := by
  have hcons {gs : List (Role × List (Block J))} (hgs : Answered gs) (c : List (Block J)) :
      Answered ((.user, c) :: gs) := by
    intro blocks' rest hsuffix
    rcases List.suffix_cons_iff.mp hsuffix with heq | hsuffix
    · cases heq
    · exact hgs blocks' rest hsuffix
  cases groups with
  | nil => exact hcons h blocks
  | cons g groups =>
    simp only [prepend]
    split_ifs
    · apply hcons
      intro blocks' rest hsuffix
      exact h blocks' rest (hsuffix.trans (List.suffix_cons _ _))
    · exact hcons h blocks

theorem Answered.assistant {groups : List (Role × List (Block J))} (h : Answered groups)
    {blocks : List (Block J)} (huses : toolUses blocks = opening groups) :
    Answered (prepend .assistant blocks groups) := by
  match groups with
  | [] =>
    intro blocks' rest hsuffix
    rcases List.suffix_cons_iff.mp hsuffix with heq | hsuffix
    · cases heq
      exact huses
    · cases List.suffix_nil.mp hsuffix
  | (.assistant, later) :: groups =>
    intro blocks' rest hsuffix
    rcases List.suffix_cons_iff.mp hsuffix with heq | hsuffix
    · cases heq
      have hlater := h later groups List.suffix_rfl
      rw [toolUses_append, huses]
      exact hlater
    · exact h blocks' rest (hsuffix.trans (List.suffix_cons _ _))
  | (.user, later) :: groups =>
    intro blocks' rest hsuffix
    rcases List.suffix_cons_iff.mp hsuffix with heq | hsuffix
    · cases heq
      exact huses
    · exact h blocks' rest hsuffix

theorem opening_text (content : String) (groups : List (Role × List (Block J))) :
    opening (prepend .user [.text content] groups) = [] := by
  obtain ⟨rest, tail, hgroups⟩ := head_prepend Role.user [Block.text content] groups
  rw [hgroups]
  rfl

theorem opening_assistant (blocks : List (Block J)) (groups : List (Role × List (Block J))) :
    opening (prepend .assistant blocks groups) = [] := by
  obtain ⟨rest, tail, hgroups⟩ := head_prepend Role.assistant blocks groups
  rw [hgroups]
  rfl

theorem opening_result (result : ToolResult) (groups : List (Role × List (Block J))) :
    opening (prepend .user (Message.toolResult result).blocks groups) =
      result.toolCallId :: opening groups := by
  match groups with
  | [] => rfl
  | (.user, blocks) :: groups => rfl
  | (.assistant, blocks) :: groups => rfl

theorem coupled_results (results : List ToolResult) {rest : Transcript J}
    (h : Answered (merged Message.role Message.blocks rest)) :
    Answered (merged Message.role Message.blocks (results.map Message.toolResult ++ rest)) ∧
      opening (merged Message.role Message.blocks (results.map Message.toolResult ++ rest)) =
        results.map ToolResult.toolCallId ++ opening (merged Message.role Message.blocks rest) := by
  induction results with
  | nil => exact ⟨h, rfl⟩
  | cons result results ih =>
    exact ⟨ih.1.user _, (opening_result result _).trans (congrArg (result.toolCallId :: ·) ih.2)⟩

theorem toolUses_assistant (content : String) (toolCalls : List (ToolCall J)) :
    toolUses (Message.assistant content toolCalls).blocks = toolCalls.map ToolCall.id := by
  have htext : toolUses (J := J) (if content = "" then [] else [.text content]) = [] := by
    split_ifs <;> rfl
  rw [Message.blocks, toolUses_append, htext, List.nil_append, toolUses, List.filterMap_map]
  exact congrFun List.filterMap_eq_map' toolCalls

theorem Paired.answered {t : Transcript J} (h : Paired t) :
    Answered (merged Message.role Message.blocks t) ∧
      opening (merged Message.role Message.blocks t) = [] := by
  induction h with
  | nil =>
    refine ⟨?_, rfl⟩
    intro blocks rest hsuffix
    cases List.suffix_nil.mp hsuffix
  | user content _ ih => exact ⟨ih.1.user _, opening_text content _⟩
  | assistant content toolCalls results hids _ ih =>
    obtain ⟨hanswered, hopening⟩ := coupled_results results ih.1
    rw [ih.2, List.append_nil, hids] at hopening
    refine ⟨hanswered.assistant ?_, opening_assistant _ _⟩
    rw [hopening]
    exact toolUses_assistant content toolCalls

def Message.Silent : Message J → Prop
  | .assistant content toolCalls => content = "" ∧ toolCalls = []
  | _ => False

instance : DecidablePred (Message.Silent (J := J))
  | .assistant content toolCalls => decidable_of_iff (content = "" ∧ toolCalls.isEmpty = true) (by
      simp [Message.Silent])
  | .user _ => isFalse id
  | .toolResult _ => isFalse id

theorem blocks_eq_nil (item : Message J) : item.blocks = [] ↔ item.Silent := by
  cases item with
  | user content => simp [Message.blocks, Message.Silent]
  | toolResult result => simp [Message.blocks, Message.Silent]
  | assistant content toolCalls => simp [Message.blocks, Message.Silent]

def Spoken (transcript : Transcript J) : Prop :=
  ∀ turn ∈ transcript.splitBy fun i j => i.role = j.role, ∃ item ∈ turn, ¬ item.Silent

def Renders (transcript : Transcript J) : Prop :=
  ∃ messages, toAnthropicMessages transcript = .ok messages ∧
    Acceptable (messages.map AnthropicMessage.group)

theorem spoken_of_items {t : Transcript J} (h : ∀ item ∈ t, ¬ item.Silent) : Spoken t := by
  intro turn hturn
  obtain ⟨item, rest, rfl⟩ := List.exists_cons_of_ne_nil (List.ne_nil_of_mem_splitBy hturn)
  refine ⟨item, List.mem_cons_self, h item ?_⟩
  have hmem : item ∈ (t.splitBy fun i j => i.role = j.role).flatten :=
    List.mem_flatten_of_mem hturn List.mem_cons_self
  rwa [List.flatten_splitBy] at hmem

theorem renders_iff {t : Transcript J} (hp : Paired t) (hs : ∃ content rest, t = .user content :: rest) :
    Renders t ↔ Spoken t := by
  have hfilled : (∀ g ∈ merged Message.role Message.blocks t, g.2 ≠ []) ↔ Spoken t := by
    rw [merged_filled]
    simp only [ne_eq, blocks_eq_nil]
    rfl
  constructor
  · rintro ⟨messages, hok, hgood⟩
    rw [group_rendered hok] at hgood
    exact hfilled.mp hgood.filled
  · intro hspoken
    refine ⟨_, toAnthropicMessages_ok t, ?_⟩
    rw [group_rendered (toAnthropicMessages_ok t)]
    obtain ⟨content, rest, rfl⟩ := hs
    obtain ⟨blocks, tail, hgroups⟩ := head_prepend Role.user [Block.text content]
      (merged Message.role Message.blocks rest)
    exact ⟨⟨_, tail, hgroups⟩, merged_alternates _, hfilled.mpr hspoken, hp.answered.1⟩

section Runs

variable {dumps : J → String} {agent : Agent} {parts : List ContextPart}

structure Talking (s : AgentState J) : Prop where
  transcript : ∀ item ∈ s.transcript, ¬ item.Silent
  prompts : ∀ prompt ∈ s.prompts, ∀ item ∈ prompt.transcript, ¬ item.Silent
  sent : ∀ e ∈ s.exchanges, ∀ item ∈ e.sent, ¬ item.Silent

theorem talking_messages (agent : Agent) {out : StepOutput J} (tool : ℕ → ToolOutcome)
    (hcalls : out.toolCalls ≠ []) : ∀ item ∈ (agentStep agent out tool).messages, ¬ item.Silent := by
  intro item hitem
  rcases List.mem_cons.mp hitem with rfl | hitem
  · exact fun h => hcalls h.2
  · obtain ⟨e, _, rfl⟩ := List.mem_map.mp hitem
    exact id

theorem Talking.takes {s t : AgentState J} {index : ℕ} {r : StepReply J}
    {result : Option (Except Exc (AgentRun J))} (h : Talking s)
    (hstep : takeStep dumps agent parts s index r = (t, result)) :
    (result = none → ∀ item ∈ t.transcript, ¬ item.Silent) ∧
      (∀ prompt ∈ t.prompts, ∀ item ∈ prompt.transcript, ¬ item.Silent) ∧
      ∀ e ∈ t.exchanges, ∀ item ∈ e.sent, ¬ item.Silent := by
  apply takeStep_keeps (P := fun u => ∀ item ∈ u, ¬ item.Silent) _ _ _ hstep h.transcript h.prompts
    h.sent
  · intro text item hitem
    rw [List.mem_singleton.mp hitem]
    exact id
  · intro t summary ht item hitem
    rcases List.mem_cons.mp hitem with rfl | hitem
    · exact id
    · exact ht item (List.mem_of_mem_drop hitem)
  · intro t out tool hcalls ht item hitem
    rcases List.mem_append.mp hitem with hold | hnew
    · exact ht item hold
    · exact talking_messages agent tool hcalls item hnew

theorem run_transcripts_talking (dumps : J → String) (agent : Agent) (userInput : String)
    (memory retrieved : Option (List String)) (taskState : Option String)
    (env : ℕ → StepReply J) :
    (∀ e ∈ (runAgent dumps agent userInput memory retrieved taskState env).1.exchanges,
      ∀ item ∈ e.sent, ¬ item.Silent) ∧
    ∀ prompt ∈ (runAgent dumps agent userInput memory retrieved taskState env).1.prompts,
      ∀ item ∈ prompt.transcript, ¬ item.Silent := by
  have hstart : Talking (newState (J := J) userInput) := by
    refine ⟨?_, by simp [newState], by simp [newState]⟩
    intro item hitem
    rw [List.mem_singleton.mp hitem]
    exact id
  refine (rounds_invariant (I := Talking) (L := fun s =>
    (∀ prompt ∈ s.prompts, ∀ item ∈ prompt.transcript, ¬ item.Silent) ∧
      ∀ e ∈ s.exchanges, ∀ item ∈ e.sent, ¬ item.Silent) env ?_ ?_ ?_ hstart _ _).symm
  · exact fun s h => ⟨h.prompts, h.sent⟩
  · intro s index r t h hstep
    obtain ⟨htranscript, hprompts, hsent⟩ := h.takes hstep
    exact ⟨htranscript rfl, hprompts, hsent⟩
  · intro s index r t result h hstep
    exact (h.takes hstep).2

end Runs

theorem paired_complete (messages : List ChatMessage) : Paired (J := J) (completeTranscript messages) := by
  induction messages with
  | nil => exact .nil
  | cons m messages ih =>
    rw [completeTranscript, List.map_cons, ChatMessage.item]
    split_ifs
    · exact .user m.content ih
    · exact .assistant m.content [] [] rfl ih

theorem rendering_acceptable_iff (dumps : J → String) :
    (∀ agent userInput memory retrieved taskState env,
      (∀ e ∈ (runAgent dumps agent userInput memory retrieved taskState env).1.exchanges,
        Renders e.sent) ∧
      ∀ prompt ∈ (runAgent dumps agent userInput memory retrieved taskState env).1.prompts,
        Renders prompt.transcript) ∧
    ∀ messages : List ChatMessage, messages.head?.map ChatMessage.role = some .user →
      (Renders (J := J) (completeTranscript messages) ↔
        Spoken (J := J) (completeTranscript messages)) := by
  constructor
  · intro agent userInput memory retrieved taskState env
    obtain ⟨hsent, hprompts⟩ :=
      runAgent_shaped dumps agent userInput memory retrieved taskState env
    obtain ⟨hloud, hloud'⟩ :=
      run_transcripts_talking dumps agent userInput memory retrieved taskState env
    constructor
    · intro e he
      exact (renders_iff (hsent e he).paired (hsent e he).starts).mpr (spoken_of_items (hloud e he))
    · intro prompt hp
      exact (renders_iff (hprompts prompt hp).paired (hprompts prompt hp).starts).mpr
        (spoken_of_items (hloud' prompt hp))
  · intro messages hfirst
    apply renders_iff (paired_complete messages)
    obtain ⟨m, hm, hrole⟩ := Option.map_eq_some_iff.mp hfirst
    obtain ⟨rest, rfl⟩ := List.head?_eq_some_iff.mp hm
    refine ⟨m.content, completeTranscript rest, ?_⟩
    rw [completeTranscript, List.map_cons, ChatMessage.item, if_pos hrole]
    rfl

def hushedTurn : List ChatMessage :=
  [⟨.user, "hi"⟩, ⟨.assistant, ""⟩, ⟨.assistant, "hello"⟩, ⟨.user, "bye"⟩]

theorem hushed_turn_acceptable : Renders (J := Unit) (completeTranscript hushedTurn) := by
  apply ((rendering_acceptable_iff fun _ => "").2 hushedTurn rfl).mpr
  have hturns : (completeTranscript (J := Unit) hushedTurn).splitBy (fun i j => i.role = j.role) =
      [[.user "hi"], [.assistant "" [], .assistant "hello" []], [.user "bye"]] := by
    decide +kernel
  rw [Spoken, hturns]
  decide

theorem silent_turn_unacceptable :
    ¬ Renders (J := Unit) (completeTranscript [⟨.user, "hi"⟩, ⟨.assistant, ""⟩, ⟨.user, "bye"⟩]) := by
  rintro ⟨messages, hok, hgood⟩
  have hrendered : messages = [⟨.user, [.text "hi"]⟩, ⟨.assistant, []⟩, ⟨.user, [.text "bye"]⟩] := by
    have hsent : toAnthropicMessages (J := Unit)
        (completeTranscript [⟨.user, "hi"⟩, ⟨.assistant, ""⟩, ⟨.user, "bye"⟩]) =
          .ok [⟨.user, [.text "hi"]⟩, ⟨.assistant, []⟩, ⟨.user, [.text "bye"]⟩] := rfl
    exact Except.ok.inj (hok.symm.trans hsent)
  subst hrendered
  exact hgood.filled (.assistant, []) (by decide) rfl

end Workbench.AgentRuntime
