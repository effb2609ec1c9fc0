import Conveyor.Proofs.Server.Orders

/-!
# The histories of the parts

What happened in a part of a server can be read off what happened in the server (`inPipeline`,
`inModeration`), and it is a history of the part itself: whatever the server does, its parts make runs
of their own with just these notes. `Follows` says so of any stretch of a run. Stretches are put
together by `Follows.trans`, so one part that acts, a call that goes on, an action and a whole run
are all treated alike.

Which actions the parts are asked for depends on what the server did. `Follows` leaves this open
as `allowed`. In a whole run these are the actions that requests, the stages of its calls and steps
lead to (`Asked`), and in an action of the operator or the scheduler no request is among them.
-/

namespace Conveyor.Server

open Http Metrics Moderation Time

/-! ### What a history says of the parts -/

/-- What happened in the pipeline. -/
@[simp] def Note.inPipeline? : Note → Option (Pipeline.Note Outlet)
  | pipeline note => some note
  | _ => none

/-- What happened in the moderation service. -/
@[simp] def Note.inModeration? : Note → Option Service.Note
  | moderation note => some note
  | _ => none

/-- What happened in the server. -/
@[simp] def Entry.note? : Entry → Option Note
  | note n => some n
  | answered _ _ => none

/-- What happened in the pipeline, in order. -/
abbrev inPipeline (news : List Note) : List (Pipeline.Note Outlet) :=
  extract Note.inPipeline? news

/-- What happened in the moderation service, in order. -/
abbrev inModeration (news : List Note) : List Service.Note := extract Note.inModeration? news

/-- What happened in the server, in order. -/
abbrev happened (past : List Entry) : List Note := extract Entry.note? past

/-- The history of the server is in what is seen of a run. -/
theorem mem_happened {past : List Entry} {n : Note} : n ∈ happened past ↔ .note n ∈ past := by
  rw [happened, extract, List.mem_filterMap]
  constructor
  · rintro ⟨e, he, hn⟩
    cases e with
    | note m => exact Option.some.inj hn ▸ he
    | answered => simp at hn
  · exact fun h ↦ ⟨_, h, rfl⟩

section Extracts

variable (news : List Note) (pipelineNews : List (Pipeline.Note Outlet))
  (moderationNews : List Service.Note)

@[simp] theorem inPipeline_pipeline : inPipeline (pipelineNews.map .pipeline) = pipelineNews :=
  extract_map_eq_self (fun _ ↦ by rfl) _

@[simp] theorem inPipeline_moderation : inPipeline (moderationNews.map .moderation) = [] :=
  extract_map_eq_nil (fun _ ↦ by rfl) _

@[simp] theorem inModeration_pipeline : inModeration (pipelineNews.map .pipeline) = [] :=
  extract_map_eq_nil (fun _ ↦ by rfl) _

@[simp] theorem inModeration_moderation :
    inModeration (moderationNews.map .moderation) = moderationNews :=
  extract_map_eq_self (fun _ ↦ by rfl) _

@[simp] theorem happened_note : happened (news.map .note) = news :=
  extract_map_eq_self (fun _ ↦ by rfl) _

@[simp] theorem happened_answered (r : Http.Request) (response : Response) :
    happened (news.map .note ++ [.answered r response]) = news := by
  rw [happened, extract_append, ← happened, happened_note]
  exact List.append_nil news

end Extracts

/-- An action that is a request is the answering of it. -/
theorem State.respond_of_act {s t : State} {r : Http.Request} {now : Timestamp} {new : List Entry}
    (h : s.act (.request r now) = some (t, new)) :
    ∃ response, s.respond now r = (response, t, happened new) := by
  rcases hrespond : s.respond now r with ⟨response, u, news⟩
  simp only [act, hrespond, Option.some.injEq, Prod.mk.injEq] at h
  obtain ⟨rfl, rfl⟩ := h
  exact ⟨response, by rw [happened_answered]⟩

/-- The ring keeps what it is given, one stretch after the other. -/
theorem State.keepRecent_append (ring : Sink.Ring) (news later : List (Pipeline.Note Outlet)) :
    keepRecent ring (news ++ later) = keepRecent (keepRecent ring news) later :=
  List.foldl_append

/-! ### The parts make runs of their own -/

/-- In a stretch from `s` to `t` in which `news` happened, the parts make runs of their own, and all
their actions are allowed. -/
structure Follows (allowed : PartAction → Prop) (s t : State) (news : List Note) : Prop where
  /-- The pipeline makes a run, and no sink dies. -/
  pipeline : ∃ as, Runs Pipeline.State.act s.pipeline as t.pipeline (inPipeline news) ∧
    ∀ a ∈ as, a.isHarmless = true ∧ allowed (.pipeline a)
  /-- The moderation service makes a run. -/
  moderation : ∃ as,
    Runs (Service.State.act · s.banned.policy) s.moderation as t.moderation (inModeration news) ∧
      ∀ a ∈ as, allowed (.moderation a)
  /-- The banned terms stay the same. -/
  banned_eq : t.banned = s.banned
  /-- The ring keeps what it is given. -/
  recent_eq : t.recent = State.keepRecent s.recent (inPipeline news)

/-- The stages that calls have not begun are allowed. -/
def Allows (allowed : PartAction → Prop) (s : State) : Prop :=
  ∀ p ∈ s.pending, ∀ stage ∈ p.rest, allowed (stage.action p.id)

variable {allowed : PartAction → Prop} {s t u : State} {id : Nat} {stages : List Stage}
  {b : PartAction} {ids : List Nat} {a : Action} {as : List Action} {news later : List Note}
  {past new : List Entry}

namespace Allows

/-- A call that goes through stages that are allowed leaves only such stages for later. -/
theorem of_goes (h : Allows allowed s) (hgoes : Goes id s stages t news)
    (hstages : ∀ stage ∈ stages, allowed (stage.action id)) : Allows allowed t := by
  intro p hp stage hstage
  rcases hgoes.mem_pending hp with hold | ⟨rfl, hrest⟩
  · exact h p hold stage hstage
  · exact hstages stage (List.mem_of_mem_tail (hrest.subset hstage))

/-- A call that leaves the others takes only its own stages with it. -/
theorem of_others (h : Allows allowed s) (id : Nat) :
    Allows allowed { s with pending := s.others id } :=
  fun p hp ↦ h p (State.mem_others.1 hp).1

end Allows

namespace Follows

/-- Nothing happens. -/
theorem refl (s : State) : Follows allowed s s [] where
  pipeline := ⟨[], .refl, List.forall_mem_nil _⟩
  moderation := ⟨[], .refl, List.forall_mem_nil _⟩
  banned_eq := rfl
  recent_eq := rfl

/-- One stretch after the other. -/
theorem trans (h : Follows allowed s t news) (h' : Follows allowed t u later) :
    Follows allowed s u (news ++ later) := by
  obtain ⟨as, hruns, has⟩ := h.pipeline
  obtain ⟨bs, hruns', hbs⟩ := h'.pipeline
  obtain ⟨cs, hmoderates, hcs⟩ := h.moderation
  obtain ⟨ds, hmoderates', hds⟩ := h'.moderation
  rw [h.banned_eq] at hmoderates'
  refine ⟨⟨as ++ bs, ?_, ?_⟩, ⟨cs ++ ds, ?_, ?_⟩, h'.banned_eq.trans h.banned_eq, ?_⟩
  · rw [inPipeline, extract_append]
    exact hruns.trans hruns'
  · exact List.forall_mem_append.2 ⟨has, hbs⟩
  · rw [inModeration, extract_append]
    exact hmoderates.trans hmoderates'
  · exact List.forall_mem_append.2 ⟨hcs, hds⟩
  · have happend : inPipeline (news ++ later) = inPipeline news ++ inPipeline later :=
      extract_append _ _ _
    rw [h'.recent_eq, h.recent_eq, happend, State.keepRecent_append]

/-- Calls come and go. -/
theorem with_pending (h : Follows allowed s t news) (pending : List Pending) :
    Follows allowed s { t with pending } news :=
  ⟨h.pipeline, h.moderation, h.banned_eq, h.recent_eq⟩

/-- A request is answered without the parts. -/
theorem of_failures (metrics : Aggregator) (quiet : ∀ n ∈ news, ∃ failure, n = .failed failure) :
    Follows allowed s { s with metrics } news := by
  have hpipeline : inPipeline news = [] := List.filterMap_eq_nil_iff.2 fun n hn ↦ by
    obtain ⟨failure, rfl⟩ := quiet n hn
    rfl
  have hmoderation : inModeration news = [] := List.filterMap_eq_nil_iff.2 fun n hn ↦ by
    obtain ⟨failure, rfl⟩ := quiet n hn
    rfl
  constructor
  case pipeline => exact ⟨[], hpipeline ▸ .refl, List.forall_mem_nil _⟩
  case moderation => exact ⟨[], hmoderation ▸ .refl, List.forall_mem_nil _⟩
  case banned_eq => rfl
  case recent_eq => rw [hpipeline]; rfl

/-- A part acts. -/
theorem of_acts (hacts : Acts s b t news) (hb : allowed b) : Follows allowed s t news := by
  cases hacts with
  | @pipeline a pipeline news acts harmless =>
    refine ⟨⟨[a], ?_, fun c hc ↦ ?_⟩, ⟨[], ?_, List.forall_mem_nil _⟩, rfl, ?_⟩
    · rw [inPipeline_pipeline]
      exact .single acts
    · exact List.mem_singleton.1 hc ▸ ⟨harmless, hb⟩
    · rw [inModeration_pipeline]
      exact .refl
    · rw [inPipeline_pipeline]
      rfl
  | @moderation a moderation news acts =>
    refine ⟨⟨[], ?_, List.forall_mem_nil _⟩, ⟨[a], ?_, fun c hc ↦ ?_⟩, rfl, ?_⟩
    · rw [inPipeline_moderation]
      exact .refl
    · rw [inModeration_moderation]
      exact .single acts
    · exact List.mem_singleton.1 hc ▸ hb
    · rw [inPipeline_moderation]
      rfl

/-- A call goes through its stages. -/
theorem of_goes (hgoes : Goes id s stages t news)
    (hstages : ∀ stage ∈ stages, allowed (stage.action id)) : Follows allowed s t news := by
  induction hgoes with
  | @returns s => exact ⟨(refl s).pipeline, (refl s).moderation, rfl, rfl⟩
  | waits acts => exact (of_acts acts (hstages _ List.mem_cons_self)).with_pending _
  | passes acts _ _ ih =>
    have hfirst := of_acts acts (hstages _ List.mem_cons_self)
    exact hfirst.trans (ih fun stage hstage ↦ hstages stage (List.mem_cons_of_mem _ hstage))

/-- Calls go on whose stages have returned. -/
theorem of_proceeds (hproceeds : Proceeds s ids t news) (hs : Allows allowed s) :
    Follows allowed s t news ∧ Allows allowed t := by
  induction hproceeds with
  | @done s => exact ⟨refl s, hs⟩
  | skip _ _ ih => exact ih hs
  | @next s t u p ids news later waiting goes _ ih =>
    have hstages := hs p waiting
    obtain ⟨hlater, ht⟩ := ih ((hs.of_others p.id).of_goes goes hstages)
    have hgoes : Follows allowed { s with pending := s.others p.id } t news := of_goes goes hstages
    exact ⟨.trans ⟨hgoes.pipeline, hgoes.moderation, hgoes.banned_eq, hgoes.recent_eq⟩ hlater, ht⟩

end Follows

/-! ### Whole runs -/

theorem Stage.not_isRequest (stage : Stage) (id : Nat) : ¬(stage.action id).IsRequest := by
  cases stage <;> exact not_false

theorem PartAction.IsStep.not_isRequest (h : b.IsStep) : ¬b.IsRequest := by
  cases b with
  | pipeline a =>
    cases a with
    | step x => exact not_false
    | _ => exact h.elim
  | moderation a =>
    cases a with
    | step x now => exact not_false
    | _ => exact h.elim

/-- What the parts are asked for when the server does this. -/
inductive Asked (as : List Action) : PartAction → Prop where
  /-- A client asks for it. -/
  | request {r : Http.Request} {now : Timestamp} {b : PartAction} (mem : .request r now ∈ as)
      (isRequest : b.IsRequest) : Asked as b
  /-- A call comes to this stage. -/
  | stage {id : Nat} {order : Order} {stage : Stage} (issued : .issue id order ∈ as)
      (mem : stage ∈ order.stages) : Asked as (stage.action id)
  /-- The scheduler lets it happen. -/
  | step {b : PartAction} (isStep : b.IsStep) : Asked as b

/-- More is done. -/
theorem Asked.mono {bs : List Action} (h : Asked as b) (hsub : as ⊆ bs) : Asked bs b := by
  cases h with
  | request mem isRequest => exact .request (hsub mem) isRequest
  | stage issued mem => exact .stage (hsub issued) mem
  | step isStep => exact .step isStep

namespace Follows

/-- Something happens in the server. -/
theorem of_change (hchange : Change s a t new) (hs : Allows allowed s)
    (hasked : ∀ b, Asked [a] b → allowed b) :
    Follows allowed s t (happened new) ∧ Allows allowed t := by
  have ha : a ∈ [a] := List.mem_cons_self
  cases hchange with
  | answer quiet =>
    rw [happened_answered]
    exact ⟨of_failures _ quiet, hs⟩
  | ask acts _ isRequest =>
    rw [happened_answered]
    exact ⟨of_acts acts (hasked _ (.request ha isRequest)), fun p hp ↦ hs p (acts.pending_eq ▸ hp)⟩
  | issue goes =>
    rw [happened_note]
    have hstages (stage : Stage) (hstage : stage ∈ _) := hasked (stage.action _) (.stage ha hstage)
    exact ⟨of_goes goes hstages, hs.of_goes goes hstages⟩
  | step isStep acts proceeds =>
    rw [happened_note]
    obtain ⟨hlater, ht⟩ := of_proceeds proceeds fun p hp ↦ hs p (acts.pending_eq ▸ hp)
    exact ⟨(of_acts acts (hasked _ (.step isStep))).trans hlater, ht⟩

/-- No request is among what the operator or the scheduler leads to. -/
theorem of_background (hact : s.act a = some (t, new)) (ha : ∀ r now, a ≠ .request r now) :
    Follows (¬·.IsRequest) s t (happened new) := by
  refine (of_change (State.change hact) (fun p _ stage _ ↦ stage.not_isRequest p.id) ?_).1
  intro b hb
  cases hb with
  | request mem => exact absurd (List.mem_singleton.1 mem).symm (ha _ _)
  | @stage id _ stage => exact stage.not_isRequest id
  | step isStep => exact isStep.not_isRequest

/-- The parts make runs of their own in every run. -/
theorem of_runs (hruns : Runs State.act s as t past) (hs : Allows allowed s)
    (hasked : ∀ b, Asked as b → allowed b) :
    Follows allowed s t (happened past) ∧ Allows allowed t := by
  induction hruns with
  | refl => exact ⟨refl s, hs⟩
  | @tail as u past a t new _ act_eq ih =>
    have hbefore (b : PartAction) (hb : Asked as b) : allowed b :=
      hasked b (hb.mono (List.subset_append_left as [a]))
    have hnow (b : PartAction) (hb : Asked [a] b) : allowed b :=
      hasked b (hb.mono (List.subset_append_right as [a]))
    obtain ⟨hfirst, hu⟩ := ih hbefore
    obtain ⟨hlast, ht⟩ := of_change (State.change act_eq) hu hnow
    rw [happened, extract_append]
    exact ⟨hfirst.trans hlast, ht⟩

/-- The parts of a new server make runs of their own. -/
theorem of_new {settings : Settings.Server}
    (hruns : Runs State.act (State.new settings).1 as s past) :
    Follows (Asked as) (State.new settings).1 s (happened past) :=
  (of_runs hruns (List.forall_mem_nil _) fun _ ↦ id).1

end Follows

end Conveyor.Server
