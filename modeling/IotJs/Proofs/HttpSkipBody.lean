import IotJs.Core.Http
import IotJs.Core.HttpSkipBody
import IotJs.Lib.Reentrant.Play

/-!
# `IotJs.Proofs.HttpSkipBody`: when the parser is told what it has to know

`parserOnIncomingClient` compares `req.method`, which nothing sets, and it returns nothing for a
second head. An exception of a listener of 'response' takes the place of the value. So what the
native code gets is not always a boolean, and never `true` for a HEAD request. `Fine` leaves these
moves out, and `skips_iff` says that it leaves out no others: after a run every value was a boolean
that says whether the method is HEAD, and no assertion has failed, exactly if each move was fine.
-/

set_option autoImplicit false

namespace IotJs.SkipBody

open Reentrant

/-- Each value that the native code got says whether the method is HEAD. -/
def Good (method : String) (s : ClientRequest) : Prop :=
  ∀ value ∈ s.returned, value = .boolean (method == "HEAD")

/-- No assertion has failed, and each value says whether the method is HEAD. -/
structure Skips (method : String) (s : ClientRequest) : Prop where
  alive : s.aborted = false
  good : Good method s

/-- What the listeners of 'response' did is fine: they throw nothing, and the method is not HEAD,
or else they throw the boolean that was to be returned. -/
def FineAnswer (method : String) (answers : List Int) : Prop :=
  (thrown (answers.headD 0) = none → method ≠ "HEAD") ∧
    ∀ error ∈ thrown (answers.headD 0), error = .boolean (method == "HEAD")

/-- A head is the first one, and what its listeners do is fine. -/
def Fine (method : String) (c : Config ClientRequest Tag Ask) : Move Call → Prop
  | .call .onHeadersComplete _ => c.heap.res = false
  | .ret answers => c.tags.head? = some .response → FineAnswer method answers
  | .throw => True

instance (method : String) (answers : List Int) : Decidable (FineAnswer method answers) :=
  inferInstanceAs (Decidable (_ ∧ _))

instance (method : String) (c : Config ClientRequest Tag Ask) :
    ∀ m : Move Call, Decidable (Fine method c m)
  | .call .onHeadersComplete _ => inferInstanceAs (Decidable (c.heap.res = false))
  | .ret _ => inferInstanceAs (Decidable (_ → _))
  | .throw => .isTrue trivial

/-! ### The tags determine the stack -/

theorem tagged_afterCall (jres : JsValue) : (afterCall jres).Tagged resume := rfl

theorem tagged_returns (value : JsValue) : (returns value).Tagged resume := by
  rw [returns, record, Prog.tagged_modify_bind]
  exact fun _ => tagged_afterCall value

theorem tagged_throws (error : JsValue) : (throws error).Tagged resume := by
  rw [throws, record, Prog.tagged_modify_bind]
  exact fun _ => rfl

theorem tagged_afterResponse : afterResponse.Tagged resume := by
  rw [afterResponse, Prog.tagged_askFor_bind]
  intro answer
  cases thrown answer with
  | some error => exact tagged_throws error
  | none =>
      show ((get : Method ClientRequest) >>= fun s =>
        returns (.boolean (s.method == some "HEAD"))).Tagged resume
      rw [Prog.tagged_get_bind]
      exact fun s => tagged_returns _

theorem machine_tagged : machine.Tagged resume where
  body i := by
    cases i with
    | onHeadersComplete =>
        show parserOnIncomingClient.Tagged resume
        rw [parserOnIncomingClient, Prog.tagged_get_bind]
        intro s
        split
        · rw [Prog.tagged_modify_bind]
          exact fun _ => tagged_returns .undefined
        · rw [Prog.tagged_modify_bind]
          exact fun _ => rfl
  resume tag := by
    cases tag with
    | response => exact tagged_afterResponse
    | uncaughtException jres => exact tagged_afterCall jres
    | nextTick jres =>
        cases jres with
        | boolean b => exact Prog.tagged_pure ()
        | undefined => exact Prog.tagged_modify _
        | other => exact Prog.tagged_modify _

/-! ### The invariant -/

/-- The native code has got the value. -/
def Tag.value : Tag → Option JsValue
  | .response => none
  | .uncaughtException jres => some jres
  | .nextTick jres => some jres

/-- Nothing sets `req.method`, and an assertion fails only on a value that the native code got. -/
structure Inv (s : ClientRequest) (tags : List Tag) : Prop where
  method : s.method = none
  aborted : s.aborted = true → ∃ value ∈ s.returned, ∀ b, value ≠ .boolean b
  recorded : ∀ tag ∈ tags, ∀ value ∈ tag.value, value ∈ s.returned

section

variable {s : ClientRequest} {tags : List Tag}

theorem Inv.push (h : Inv s tags) {tag : Tag} (htag : ∀ value ∈ tag.value, value ∈ s.returned) :
    Inv s (tag :: tags) where
  method := h.method
  aborted := h.aborted
  recorded := List.forall_mem_cons.mpr ⟨htag, h.recorded⟩

theorem Inv.pop {tag : Tag} (h : Inv s (tag :: tags)) : Inv s tags where
  method := h.method
  aborted := h.aborted
  recorded := (List.forall_mem_cons.mp h.recorded).2

/-- The native code gets a value. -/
theorem Inv.record (h : Inv s tags) (value : JsValue) (destroyed : Bool) :
    Inv { s with destroyed := destroyed, returned := s.returned ++ [value] } tags where
  method := h.method
  aborted ha := by
    obtain ⟨old, hmem, hbad⟩ := h.aborted ha
    exact ⟨old, List.mem_append_left _ hmem, hbad⟩
  recorded tag hmem old hold := List.mem_append_left _ (h.recorded tag hmem old hold)

theorem good_record_iff (method : String) (value : JsValue) (destroyed : Bool) :
    Good method { s with destroyed := destroyed, returned := s.returned ++ [value] } ↔
      Good method s ∧ value = .boolean (method == "HEAD") := by
  unfold Good
  rw [List.forall_mem_append, List.forall_mem_singleton]

end

/-! ### One move -/

section step

variable (method : String) {s : ClientRequest} {tags : List Tag} (answers : List Int)

/-- The state and the tags after a piece of code, when it was started in `s`, and whether what it
did is good depends on `fine`. -/
def Leaves (method : String) (s : ClientRequest) (tags : List Tag)
    (o : Outcome ClientRequest Tag Ask Unit) (fine : Prop) : Prop :=
  Inv o.heap (o.tag.toList ++ tags) ∧ (Good method o.heap ↔ Good method s ∧ fine)

theorem leaves_returns (h : Inv s tags) (value : JsValue) (destroyed : Bool) :
    Leaves method s tags ((returns value).exec answers { s with destroyed := destroyed })
      (value = .boolean (method == "HEAD")) := by
  refine ⟨(h.record value destroyed).push fun v hv => ?_, good_record_iff method value destroyed⟩
  rw [← Option.some.inj hv]
  exact List.mem_append_right _ List.mem_cons_self

theorem leaves_throws (h : Inv s tags) (error : JsValue) :
    Leaves method s tags ((throws error).exec answers s) (error = .boolean (method == "HEAD")) := by
  refine ⟨(h.record error s.destroyed).push fun v hv => ?_, good_record_iff method error s.destroyed⟩
  rw [← Option.some.inj hv]
  exact List.mem_append_right _ List.mem_cons_self

/-- Since `req.method` is not set, what the handler returns is `false`. -/
theorem leaves_afterResponse (h : Inv s tags) :
    Leaves method s tags (afterResponse.exec answers s) (FineAnswer method answers) := by
  rw [afterResponse, Prog.exec_askFor_bind, FineAnswer]
  cases thrown (answers.headD 0) with
  | some error =>
      obtain ⟨hinv, hgood⟩ := leaves_throws method answers.tail h error
      refine ⟨hinv, hgood.trans (and_congr_right fun _ => ?_)⟩
      constructor
      · intro heq
        exact ⟨fun hnone => absurd hnone (Option.some_ne_none _),
          fun e he => Option.some.inj he ▸ heq⟩
      · intro hfine
        exact hfine.2 error rfl
  | none =>
      -- `req.method` is `undefined`, so the comparison is with `undefined`
      obtain ⟨hinv, hgood⟩ := leaves_returns method answers.tail h
        (.boolean (s.method == some "HEAD")) s.destroyed
      refine ⟨hinv, hgood.trans (and_congr_right fun _ => ?_)⟩
      rw [h.method]
      constructor
      · rintro heq
        refine ⟨fun _ hhead => ?_, fun e he => absurd he (Option.not_mem_none e)⟩
        rw [hhead] at heq
        exact absurd heq (by decide)
      · intro hfine
        have hhead : (method == "HEAD") = false := beq_eq_false_iff_ne.mpr (hfine.1 rfl)
        rw [hhead]
        rfl

theorem leaves_parserOnIncomingClient (h : Inv s tags) :
    Leaves method s tags (parserOnIncomingClient.exec answers s) (s.res = false) := by
  rw [parserOnIncomingClient, Prog.exec_get_bind]
  by_cases hres : s.res = true
  · rw [if_pos hres, Prog.exec_modify_bind]
    obtain ⟨hinv, hgood⟩ := leaves_returns method answers h .undefined true
    -- a second head: the handler returns `undefined`, which is no boolean
    refine ⟨hinv, hgood.trans (and_congr_right fun _ => ?_)⟩
    rw [hres]
    exact ⟨fun heq => JsValue.noConfusion heq, fun heq => Bool.noConfusion heq⟩
  · -- the first head: nothing is returned before the listeners of 'response' are done
    have hfirst : s.res = false := eq_false_of_ne_true hres
    rw [if_neg hres, Prog.exec_modify_bind]
    refine ⟨?_, (and_iff_left hfirst).symm⟩
    have hset : Inv { s with res := true } tags := ⟨h.method, h.aborted, h.recorded⟩
    exact hset.push fun v hv => absurd hv (Option.not_mem_none v)

theorem leaves_asBoolean {jres : JsValue} (h : Inv s (.nextTick jres :: tags)) :
    Leaves method s tags ((iotjs_jval_as_boolean jres).exec answers s) True := by
  have hmem : jres ∈ s.returned := h.recorded _ List.mem_cons_self jres rfl
  have habort : (∀ b, jres ≠ .boolean b) → Inv { s with aborted := true } tags := fun hbad =>
    ⟨h.method, fun _ => ⟨jres, hmem, hbad⟩, h.pop.recorded⟩
  cases jres with
  | boolean b => exact ⟨h.pop, (and_iff_left trivial).symm⟩
  | undefined => exact ⟨habort fun b heq => JsValue.noConfusion heq, (and_iff_left trivial).symm⟩
  | other => exact ⟨habort fun b heq => JsValue.noConfusion heq, (and_iff_left trivial).symm⟩

/-- A move keeps the invariant, and it keeps the values good exactly if it is fine. -/
theorem step_fine {c c' : Config ClientRequest Tag Ask} {m : Move Call}
    (hinv : c.Tagged resume ∧ Inv c.heap c.tags) (hrun : running c m)
    (hstep : machine.step c m = some c') :
    (c'.Tagged resume ∧ Inv c'.heap c'.tags) ∧
      (Good method c'.heap ↔ Good method c.heap ∧ Fine method c m) := by
  obtain ⟨htagged, htag⟩ := machine_tagged.step hinv.1 hstep
  suffices h : Inv c'.heap c'.tags ∧ (Good method c'.heap ↔ Good method c.heap ∧ Fine method c m) from
    ⟨⟨htagged, h.1⟩, h.2⟩
  have h := hinv.2
  unfold Fine
  generalize c.tags = tags at h htag ⊢
  generalize c'.heap = s' at htag ⊢
  generalize c'.tags = tags' at htag ⊢
  cases htag with
  | call i answers tags =>
      cases i with
      | onHeadersComplete => exact leaves_parserOnIncomingClient method answers h
  | ret answers tag tags =>
      cases tag with
      | response =>
          obtain ⟨hinv, hgood⟩ := leaves_afterResponse method answers h.pop
          refine ⟨hinv, hgood.trans (and_congr_right fun _ => ?_)⟩
          exact ⟨fun hfine _ => hfine, fun hfine => hfine rfl⟩
      | uncaughtException jres =>
          have hmem := h.recorded _ List.mem_cons_self
          exact ⟨h.pop.push hmem, (and_iff_left fun heq => Tag.noConfusion (Option.some.inj heq)).symm⟩
      | nextTick jres =>
          obtain ⟨hinv, hgood⟩ := leaves_asBoolean method answers h
          refine ⟨hinv, hgood.trans (and_congr_right fun _ => ?_)⟩
          exact ⟨fun _ heq => Tag.noConfusion (Option.some.inj heq), fun _ => trivial⟩
  | throw => exact hrun.elim

end step

/-! ### The connection -/

/-- A method of the socket yields to nothing but what it yields to. -/
theorem tag_net {α : Type} (p : Socket.Method α) (rs : List Int) (s : Socket) :
    ((Http.net p).exec rs s).tag = (p.exec rs s).tag.map .socket := by
  show ((p.intercept (fun _ => pure ()) Http.HttpYield.socket Http.HttpAsk.socket).exec rs s).tag =
    _
  induction p generalizing rs s with
  | ret a => rfl
  | read k ih => exact ih s rs s
  | write t k ih => exact ih rs t
  | yield u k => rfl
  | ask q k ih => exact ih _ rs.tail s
  | throw e => rfl

/-- The handler of a connection and that of its request emit 'response' for the same heads, and
they know the next head for another one. -/
theorem response_agrees (P : Platform) (rs rs' : List Int) {s : Socket} {request : ClientRequest}
    (hres : request.res = s.http.res) :
    (((Http.Client.parserOnIncomingClient P).exec rs s).tag = some .request ↔
        (parserOnIncomingClient.exec rs' request).tag = some .response) ∧
      (request.res = false →
        ((Http.Client.parserOnIncomingClient P).exec rs s).heap.http.res = true ∧
          (parserOnIncomingClient.exec rs' request).heap.res = true) := by
  rw [Http.Client.parserOnIncomingClient, parserOnIncomingClient, Prog.exec_get_bind,
    Prog.exec_get_bind]
  by_cases hagain : s.http.res = true
  · rw [if_pos hagain, if_pos (hres.trans hagain), tag_net]
    refine ⟨⟨fun htag => ?_, fun htag => ?_⟩, fun hfirst => ?_⟩
    · obtain ⟨u, -, heq⟩ := Option.map_eq_some_iff.mp htag
      exact Http.HttpYield.noConfusion heq
    · exact Tag.noConfusion (Option.some.inj htag)
    · exact absurd (hfirst.symm.trans (hres.trans hagain)) Bool.noConfusion
  · have hfirst : request.res ≠ true := fun h => hagain (hres.symm.trans h)
    rw [if_neg hagain, if_neg hfirst]
    exact ⟨⟨fun _ => rfl, fun _ => rfl⟩, fun _ => ⟨rfl, rfl⟩⟩

/-! ### Whole runs -/

/-- After a run each value that `OnHeadersComplete` gave was a boolean that says whether the method
is HEAD, and no assertion has failed, exactly if each move of the run was fine. -/
theorem skips_iff (options : Options) {ms : List (Move Call)}
    {d : Config ClientRequest Tag Ask}
    (hruns : machine.Meets running ⟨clientRequest options, []⟩ ms)
    (hplay : machine.play ⟨clientRequest options, []⟩ ms = some d) :
    Skips options.requestMethod d.heap ↔
      machine.Meets (Fine options.requestMethod) ⟨clientRequest options, []⟩ ms := by
  let start : Config ClientRequest Tag Ask := ⟨clientRequest options, []⟩
  have hinit : start.Tagged resume ∧ Inv start.heap start.tags := by
    refine ⟨fun f hf => absurd hf List.not_mem_nil, rfl, fun ha => Bool.noConfusion ha, ?_⟩
    exact fun tag hmem => absurd hmem List.not_mem_nil
  have hgood : Good options.requestMethod start.heap := fun v hmem => absurd hmem List.not_mem_nil
  have hiff := Machine.play_iff (I := fun c => c.Tagged resume ∧ Inv c.heap c.tags)
    (G := fun c => Good options.requestMethod c.heap)
    (fun c m c' hi hr hs => step_fine options.requestMethod hi hr hs) hinit hruns hplay
  have hd : d.Tagged resume ∧ Inv d.heap d.tags :=
    Machine.play_invariant (fun c m c' hi hr hs =>
      (step_fine options.requestMethod hi hr hs).1) hinit hruns hplay
  constructor
  · intro hskips
    exact (hiff.mp hskips.good).2
  · intro hfine
    have hall := hiff.mpr ⟨hgood, hfine⟩
    refine ⟨eq_false_of_ne_true fun ha => ?_, hall⟩
    -- an assertion fails on a value that is no boolean, and each value is one
    obtain ⟨value, hmem, hbad⟩ := hd.2.aborted ha
    exact hbad _ (hall value hmem)

/-- One head of a response to a GET request, and a listener that does not throw. -/
theorem skips_get :
    ∃ d : Config ClientRequest Tag Ask, d.heap.returned = [.boolean false] ∧
      Skips "GET" d.heap :=
  ⟨_, rfl, (@skips_iff ⟨none, none, []⟩ [.call .onHeadersComplete [], .ret [0], .ret []] _
    (by decide) rfl).mpr (by decide)⟩

/-- A response to a HEAD request is said to have a body. A second head on a connection, a response
after an interim one, fails the assertion, and so does a listener that throws. -/
theorem skips_wrong :
    (∃ ms d, machine.Meets running ⟨clientRequest ⟨some "HEAD", none, []⟩, []⟩ ms ∧
      machine.play ⟨clientRequest ⟨some "HEAD", none, []⟩, []⟩ ms = some d ∧
      d.heap.returned = [.boolean false]) ∧
    (∃ ms d, machine.Meets running ⟨clientRequest ⟨some "GET", none, []⟩, []⟩ ms ∧
      machine.play ⟨clientRequest ⟨some "GET", none, []⟩, []⟩ ms = some d ∧
      d.heap.returned = [.boolean false, .undefined] ∧ d.heap.aborted = true) ∧
    ∃ ms d, machine.Meets running ⟨clientRequest ⟨some "GET", none, []⟩, []⟩ ms ∧
      machine.play ⟨clientRequest ⟨some "GET", none, []⟩, []⟩ ms = some d ∧
      d.heap.returned = [.other] ∧ d.heap.aborted = true := by
  refine ⟨⟨[.call .onHeadersComplete [], .ret [0], .ret []], _, by decide, rfl, rfl⟩,
    ⟨[.call .onHeadersComplete [], .ret [0], .ret [], .call .onHeadersComplete [], .ret []], _,
      by decide, rfl, rfl, rfl⟩,
    [.call .onHeadersComplete [], .ret [3], .ret [], .ret []], _, by decide, rfl, rfl, rfl⟩

end IotJs.SkipBody
