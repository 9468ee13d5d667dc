/-
# Requests beside the loop and its callers

Any number of clients send requests to an agent, while its loop ticks and the program calls the
monitor itself. A request waits for its turn, has its work done under the lock of the monitor
and is answered, or its client hangs up before. Requests start and stop instances as direct
calls do (`Agent.monitor_answer`), so what all of them do to the monitor is what one run does:
that of the operations in the order in which they were served (`Server.monitor_after`).

Each answer tells what has been done (`Answered`): a start that is turned down and a request
that only reads leave the monitor as it is, the ids of the registry and the averages are
listed as they are, and hardly an answer is that of a fault of the server, as a start fails
for its id or its rules alone and an average only where there is none
(`Monitor.isAbsence_of_average`). The one that is tells of capacities that cannot be written,
those of a node with a path that is no text (`Server.not_sound_of_nameless`).

Key definitions: `Request.operation?`, `Answered`, `Deed`, `Server`, `Server.step`.
Key theorems: `Agent.startFor_cases`, `Agent.monitor_answer`, `Agent.answered`,
`Server.monitor_after`, `Server.answered_of_deeds`.
-/
import QuotaWatch.Agent.Api
import QuotaWatch.Proofs.Agent.Runner
import QuotaWatch.Proofs.Document.Readings
import QuotaWatch.Proofs.Monitor.Averages

namespace QuotaWatch

open Time

/-! ### What a request asks for -/

namespace Request

variable (r : Request) (written : List Char)

/-- A request to register the instance with an id as written. -/
def Posts : Prop := r.method = "POST" ∧ Route.ofTarget? r.target = some (.workload written)

/-- A request to take the instance with an id as written out of the registry. -/
def Deletes : Prop := r.method = "DELETE" ∧ Route.ofTarget? r.target = some (.workload written)

/-- What a request has done under the lock, if it changes anything. -/
def operation? : Option Operation :=
  match Route.ofTarget? r.target with
  | some (.workload written) =>
    if r.method = "POST" then do
      let id ← Text.percentDecode? written
      let params ← (Agent.paramsOf r).toOption
      some (.start id params)
    else if r.method = "DELETE" then (Text.percentDecode? written).map .stop
    else none
  | _ => none

end Request

/-! ### Answers -/

/-- An average is missing only where nothing has been fetched or nothing is kept. -/
theorem Entity.isAbsence_of_average {e : Entity} {name : String} {fault : Fault}
    (h : e.average name = .error fault) : Agent.isAbsence fault = true := by
  unfold average at h
  split at h
  · cases h
    rfl
  · unfold Window.average at h
    split at h
    · cases h
      rfl
    · cases h

theorem Monitor.isAbsence_of_average {m : Monitor} {fault : Fault}
    (h : m.average = .error fault) : Agent.isAbsence fault = true := by
  rcases bind_eq_error h with hnode | ⟨node, -, hrest⟩
  · exact Entity.isAbsence_of_average hnode
  · rcases bind_eq_error hrest with hmap | ⟨_, -, hdone⟩
    · rcases mapM_cases (fun entry : String × Instance => averageOf entry.1 entry.2)
        m.instances.entries with ⟨readings, hreadings, -⟩ | ⟨-, entry, -, flaw, -, -, hflaw, hfault⟩
      · rw [hreadings] at hmap
        cases hmap
      · obtain rfl : flaw = fault := Except.error.inj (hfault.symm.trans hmap)
        unfold averageOf at hflaw
        cases hentry : entry.2.entity.average entry.1 with
        | ok reading =>
          rw [hentry] at hflaw
          cases hflaw
        | error fault' =>
          rw [hentry] at hflaw
          cases hflaw
          exact Entity.isAbsence_of_average hentry
    · cases hdone

/-- A response with a value as its body. -/
structure Response.Holds (response : Response) (status : ℕ) (j : Json) : Prop where
  status_eq : response.status = status
  contentType_eq : response.contentType = some "application/json"
  body_eq : response.body = .json j

theorem Response.holds_ofJson {j : Json} (h : j.isText = true) : (ofJson j).Holds 200 j := by
  rw [ofJson, if_pos h]
  exact ⟨rfl, rfl, rfl⟩

theorem Response.holds_ofFault (status : ℕ) (message : String) :
    (ofFault status message).Holds status (.object [(some "error", .text (some message))]) :=
  ⟨rfl, rfl, rfl⟩

namespace Agent

variable (a : Agent) (r : Request)

/-- The averages are answered with what they are, or with why there are none. -/
theorem holds_averageResponse : match a.monitor.average with
    | .ok s => a.averageResponse.Holds 200 s.toJson
    | .error fault =>
      a.averageResponse.Holds 404 (.object [(some "error", .text (some fault.message))]) := by
  unfold averageResponse
  cases h : a.monitor.average with
  | ok s => exact Response.holds_ofJson s.isText_toJson
  | error fault =>
    dsimp only
    rw [Monitor.isAbsence_of_average h, if_pos rfl]
    exact Response.holds_ofFault 404 fault.message

theorem status_of_paramsOf {response : Response} (h : paramsOf r = .error response) :
    response.status ∈ [400, 413, 415, 422] := by
  unfold paramsOf at h
  split at h
  · cases h
    decide
  · split at h
    · cases h
      decide
    · split at h <;> cases h <;> decide

/-- **How a start is answered**: its body is turned down, or it is done and succeeds, or it
fails for its id or its rules and changes nothing. -/
theorem startFor_cases (id : String) :
    (∃ response, paramsOf r = .error response ∧ a.startFor id r = (a, response, [])) ∨
    (∃ params, paramsOf r = .ok params ∧ (a.monitor.start id params).result = .ok () ∧
      (a.startFor id r).1 = { a with monitor := (a.monitor.start id params).monitor } ∧
      (a.startFor id r).2.1.status = 201) ∨
    (∃ params fault, paramsOf r = .ok params ∧
      (a.monitor.start id params).result = .error fault ∧
      (a.monitor.start id params).monitor = a.monitor ∧
      (a.startFor id r).1 = a ∧ (a.startFor id r).2.1 = .ofFault 400 fault.message) := by
  unfold startFor
  cases hparams : paramsOf r with
  | error response => exact Or.inl ⟨response, rfl, rfl⟩
  | ok params =>
    refine Or.inr ?_
    dsimp only [adopt]
    cases hresult : (a.monitor.start id params).result with
    | ok done => exact Or.inl ⟨params, rfl, hresult, rfl, rfl⟩
    | error fault =>
      obtain ⟨hsame, hkind⟩ := Monitor.start_error hresult
      have hrefusal : isRefusal fault = true := by
        rcases hkind with rfl | ⟨parameter, flaw, rfl⟩ <;> rfl
      refine Or.inr ⟨params, fault, rfl, hresult, hsame, ?_, ?_⟩
      · dsimp only
        rw [if_pos hrefusal, hsame]
      · dsimp only
        rw [if_pos hrefusal]

variable {r} {written : List Char}

/-- A request for an instance by a method that is allowed is one for a change. -/
theorem answer_of_workload (hroute : Route.ofTarget? r.target = some (.workload written))
    (hallowed : r.method ∈ (Route.workload written).allowed) :
    a.answer r = a.change written r := by
  unfold answer
  rw [hroute]
  dsimp only
  rw [if_neg (not_not_intro hallowed)]

theorem answer_of_posts (h : r.Posts written) :
    a.answer r = match Text.percentDecode? written with
      | none => (a, .rejected 400, [])
      | some id => a.startFor id r := by
  obtain ⟨hmethod, hroute⟩ := h
  have hpost : (r.method == "POST") = true := beq_iff_eq.mpr hmethod
  rw [a.answer_of_workload hroute (by rw [hmethod, Route.allowed]; simp), change, hpost]
  rfl

theorem answer_of_deletes (h : r.Deletes written) :
    a.answer r = match Text.percentDecode? written with
      | none => (a, .rejected 400, [])
      | some id => a.stopFor id := by
  obtain ⟨hmethod, hroute⟩ := h
  have hpost : (r.method == "POST") = false := by rw [hmethod]; rfl
  rw [a.answer_of_workload hroute (by rw [hmethod, Route.allowed]; simp), change, hpost]
  rfl

/-- A page is that of a fault of the server just if it is the one of the capacities and these
cannot be written. -/
theorem status_read_eq_iff (route : Route) :
    (a.read route).status = 500 ↔ route = .systemInfo ∧ ¬ a.monitor.capacity.IsText := by
  have hother : ∀ {status : ℕ}, status ≠ 500 → route ≠ .systemInfo →
      (status = 500 ↔ route = .systemInfo ∧ ¬ a.monitor.capacity.IsText) :=
    fun hstatus hroute => iff_of_false hstatus fun h => hroute h.1
  cases route with
  | health =>
    refine hother ?_ nofun
    show (if a.isHealthy then 200 else 503) ≠ 500
    split <;> decide
  | metrics =>
    refine hother ?_ nofun
    show metricsResponse.status ≠ 500
    decide +kernel
  | latest =>
    refine hother ?_ nofun
    rw [read, latestResponse]
    cases a.latest with
    | some f => rw [(Response.holds_ofJson f.snapshot.isText_toJson).status_eq]; decide
    | none => rw [(Response.holds_ofFault 404 _).status_eq]; decide
  | average =>
    refine hother ?_ nofun
    have hholds := a.holds_averageResponse
    rw [read]
    cases h : a.monitor.average with
    | ok s =>
      rw [h] at hholds
      rw [hholds.status_eq]
      decide
    | error fault =>
      rw [h] at hholds
      rw [hholds.status_eq]
      decide
  | systemInfo =>
    rw [read, ← Capacity.isText_toJson, Response.ofJson]
    by_cases htext : a.monitor.capacity.toJson.isText = true
    · simp [htext]
    · simp [htext]
  | instances =>
    refine hother ?_ nofun
    rw [read, (Response.holds_ofJson (Json.isText_strings _)).status_eq]
    decide
  | workload written => exact hother (show (404 : ℕ) ≠ 500 by decide) nofun

/-- Any other request only reads, and it is answered with a fault of the server just if it asks
for capacities that cannot be written. -/
theorem answer_of_others (hposts : ∀ written, ¬ r.Posts written)
    (hdeletes : ∀ written, ¬ r.Deletes written) :
    (a.answer r).1 = a ∧
      ((a.answer r).2.1.status = 500 ↔ r.method ∈ ["GET", "HEAD"] ∧
        Route.ofTarget? r.target = some .systemInfo ∧ ¬ a.monitor.capacity.IsText) := by
  unfold answer
  cases hroute : Route.ofTarget? r.target with
  | none => exact ⟨rfl, iff_of_false (show (404 : ℕ) ≠ 500 by decide) fun h => by cases h.2.1⟩
  | some route =>
    dsimp only
    by_cases hallowed : r.method ∈ route.allowed
    · rw [if_neg (not_not_intro hallowed)]
      cases route with
      | workload written =>
        rcases List.mem_pair.mp hallowed with hmethod | hmethod
        · exact absurd ⟨hmethod, hroute⟩ (hdeletes written)
        · exact absurd ⟨hmethod, hroute⟩ (hposts written)
      | _ =>
        have hreads : r.method ∈ ["GET", "HEAD"] := hallowed
        refine ⟨rfl, ?_⟩
        rw [Option.some_inj, ← a.status_read_eq_iff, and_iff_right hreads]
        dsimp only
        split <;> exact Iff.rfl
    · rw [if_pos hallowed]
      refine ⟨rfl, iff_of_false (show (405 : ℕ) ≠ 500 by decide) ?_⟩
      rintro ⟨hmethod, hroute, -⟩
      cases hroute
      exact hallowed hmethod

/-- A request does to the agent what it has done under the lock of its monitor. -/
theorem monitor_answer (r : Request) :
    (a.answer r).1 = { a with monitor := a.monitor.after r.operation?.toList } := by
  have hself : a = { a with monitor := a.monitor.after [] } := rfl
  by_cases hposts : ∃ written, r.Posts written
  · obtain ⟨written, h⟩ := hposts
    have hoperation : r.operation? = (Text.percentDecode? written).bind fun id =>
        (paramsOf r).toOption.map (.start id) := by
      unfold Request.operation?
      rw [h.2]
      dsimp only
      rw [if_pos h.1]
      cases Text.percentDecode? written with
      | none => rfl
      | some id => cases (paramsOf r).toOption <;> rfl
    rw [a.answer_of_posts h, hoperation]
    cases Text.percentDecode? written with
    | none => exact hself
    | some id =>
      dsimp only [Option.bind_some]
      rcases a.startFor_cases r id with ⟨response, hparams, he⟩ | ⟨params, hparams, -, he, -⟩ |
        ⟨params, fault, hparams, -, hsame, he, -⟩
      · rw [he, hparams]
        exact hself
      · rw [he, hparams]
        rfl
      · rw [he, hparams]
        show a = { a with monitor := (a.monitor.start id params).monitor }
        rw [hsame]
  by_cases hdeletes : ∃ written, r.Deletes written
  · obtain ⟨written, h⟩ := hdeletes
    have hoperation : r.operation? = (Text.percentDecode? written).map .stop := by
      have hpost : r.method ≠ "POST" := by rw [h.1]; decide
      unfold Request.operation?
      rw [h.2]
      dsimp only
      rw [if_neg hpost, if_pos h.1]
    rw [a.answer_of_deletes h, hoperation]
    cases Text.percentDecode? written with
    | none => exact hself
    | some id => rfl
  · have hposts' : ∀ written, ¬ r.Posts written := fun written h => hposts ⟨written, h⟩
    have hdeletes' : ∀ written, ¬ r.Deletes written := fun written h => hdeletes ⟨written, h⟩
    have hoperation : r.operation? = none := by
      unfold Request.operation?
      split
      · rename_i written hroute
        rw [if_neg fun hm => hposts' written ⟨hm, hroute⟩,
          if_neg fun hm => hdeletes' written ⟨hm, hroute⟩]
      · rfl
    rw [(a.answer_of_others hposts' hdeletes').1, hoperation]
    exact hself

end Agent

/-- What the answer to a start tells about the monitor before and behind it. -/
structure StartAnswered (r : Request) (written : List Char) (response : Response)
    (m m' : Monitor) : Prop where
  /-- It is accepted if id and body can be read and the instance is registered or can be. -/
  accepted : response.status = 201 ↔
    ∃ id params, Text.percentDecode? written = some id ∧ Agent.paramsOf r = .ok params ∧
      (id ∈ m.instances.ids ∨ (m.registered? id params).isSome = true)
  /-- Behind a start that is accepted the instance is registered: with the parameters of the
  body if it was not before, else as it was. -/
  started : response.status = 201 →
    ∃ id params, Text.percentDecode? written = some id ∧ Agent.paramsOf r = .ok params ∧
      id ∈ m'.instances.ids ∧ (id ∈ m.instances.ids → m' = m) ∧
      (id ∉ m.instances.ids → ∃ processors,
        implied id params.rules m.capacity (params.partitions.map (·.name)) = .ok processors ∧
        m' =
          { m with
            instances :=
              m.instances.insert id (Instance.fresh params processors m.settings.window) })
  /-- A start that is turned down changes nothing, and the request is at fault. -/
  refused : response.status ≠ 201 → m' = m ∧ response.status ∈ [400, 413, 415, 422]
  /-- A start that fails for its id or its rules is answered with the fault. -/
  explained : ∀ id params fault, Text.percentDecode? written = some id →
    Agent.paramsOf r = .ok params → (m.start id params).result = .error fault →
      response.Holds 400 (.object [(some "error", .text (some fault.message))])

/-- What the answer to a stop tells about the monitor before and behind it. -/
structure StopAnswered (written : List Char) (response : Response) (m m' : Monitor) : Prop where
  /-- Behind a stop that is done the instance is not registered, and all else is as it was. -/
  stopped : response.status = 204 →
    ∃ id, Text.percentDecode? written = some id ∧ id ∉ m'.instances.ids ∧
      (∀ other, other ≠ id → m'.instances.get? other = m.instances.get? other) ∧
      m' = { m with instances := m'.instances }
  /-- A stop of an id that cannot be read changes nothing. -/
  unread : response.status ≠ 204 →
    Text.percentDecode? written = none ∧ m' = m ∧ response.status = 400

/-- What the answer to a request tells about the monitor before and behind it. -/
structure Answered (r : Request) (response : Response) (m m' : Monitor) : Prop where
  start : ∀ written, r.Posts written → StartAnswered r written response m m'
  stop : ∀ written, r.Deletes written → StopAnswered written response m m'
  others : (∀ written, ¬ r.Posts written) → (∀ written, ¬ r.Deletes written) → m' = m
  /-- The ids that are listed are those of the registry. -/
  listed : r.method = "GET" → Route.ofTarget? r.target = some .instances →
    response.Holds 200 (.array (m.instances.ids.map fun id => .text (some id)))
  averaged : r.method = "GET" → Route.ofTarget? r.target = some .average →
    match m.average with
      | .ok s => response.Holds 200 s.toJson
      | .error fault => response.Holds 404 (.object [(some "error", .text (some fault.message))])
  /-- The one fault of the server is to have capacities that cannot be written. -/
  sound : response.status = 500 ↔ r.method ∈ ["GET", "HEAD"] ∧
    Route.ofTarget? r.target = some .systemInfo ∧ ¬ m.capacity.IsText

namespace Monitor

variable {m : Monitor} {id : String} (params : InstanceParams)

theorem not_mem_ids_iff : id ∉ m.instances.ids ↔ m.instances.get? id = none := by
  rw [Registry.mem_ids, Bool.not_eq_true, Option.isSome_eq_false_iff, Option.isNone_iff_eq_none]

/-- When a start succeeds. -/
theorem result_start_iff (hids : ∀ id ∈ m.instances.ids, isInstanceId id = true) :
    (m.start id params).result = .ok () ↔
      id ∈ m.instances.ids ∨ (m.registered? id params).isSome = true := by
  by_cases hlive : id ∈ m.instances.ids
  · have hstart := start_of_registered params (hids id hlive) (Registry.mem_ids.mp hlive)
    exact iff_of_true hstart.1 (Or.inl hlive)
  · rw [result_start_of_absent (not_mem_ids_iff.mp hlive) params]
    exact ⟨Or.inr, fun h => h.resolve_left hlive⟩

/-- Behind a start that succeeds the instance is registered. -/
theorem mem_ids_start (h : (m.start id params).result = .ok ()) :
    id ∈ (m.start id params).monitor.instances.ids := by
  rw [Registry.mem_ids, get?_start]
  cases hlive : m.instances.get? id with
  | some i => rfl
  | none =>
    rw [Option.none_or]
    exact (result_start_of_absent hlive params).mp h

/-- A start that succeeds where there is no instance registers a fresh record and does nothing
else. -/
theorem monitor_start_of_absent (habsent : m.instances.get? id = none)
    (h : (m.start id params).result = .ok ()) :
    ∃ processors,
      implied id params.rules m.capacity (params.partitions.map (·.name)) = .ok processors ∧
      (m.start id params).monitor =
        { m with
          instances :=
            m.instances.insert id (Instance.fresh params processors m.settings.window) } := by
  rcases m.start_cases id params with hsame | ⟨-, processors, hbuilt, he⟩
  · have hmem := mem_ids_start params h
    rw [hsame] at hmem
    exact absurd habsent (not_mem_ids_iff.not.mp (not_not_intro hmem))
  · rw [buildInstance_result] at hbuilt
    exact ⟨processors, hbuilt, he⟩

/-- A stop changes the registry alone. -/
theorem monitor_stop (m : Monitor) (id : String) :
    (m.stop id).monitor = { m with instances := (m.stop id).monitor.instances } := by
  unfold stop
  split <;> rfl

end Monitor

namespace Agent

variable {a : Agent} {r : Request} {written : List Char}

theorem startAnswered (hids : ∀ id ∈ a.monitor.instances.ids, isInstanceId id = true)
    (h : r.Posts written) :
    StartAnswered r written (a.answer r).2.1 a.monitor (a.answer r).1.monitor := by
  rw [a.answer_of_posts h]
  cases hdecode : Text.percentDecode? written with
  | none =>
    refine ⟨⟨nofun, ?_⟩, nofun, fun _ => ⟨rfl, List.mem_cons_self⟩, fun _ _ _ hid => ?_⟩
    · rintro ⟨id, params, hid, -⟩
      rw [hdecode] at hid
      cases hid
    · rw [hdecode] at hid
      cases hid
  | some id =>
    dsimp only
    rcases a.startFor_cases r id with ⟨response, hparams, he⟩ |
      ⟨params, hparams, hresult, he, hstatus⟩ |
      ⟨params, fault, hparams, hresult, hsame, he, hresponse⟩
    · -- the body is turned down
      have hstatus := status_of_paramsOf r hparams
      have hne : response.status ≠ 201 := by
        intro h201
        rw [h201] at hstatus
        exact absurd hstatus (by decide)
      rw [he]
      refine ⟨⟨fun h201 => absurd h201 hne, ?_⟩, fun h201 => absurd h201 hne,
        fun _ => ⟨rfl, hstatus⟩, fun _ _ _ _ hok => ?_⟩
      · rintro ⟨_, params, -, hok, -⟩
        rw [hparams] at hok
        cases hok
      · rw [hparams] at hok
        cases hok
    · -- it succeeds
      have hlive := (Monitor.result_start_iff params hids).mp hresult
      rw [he]
      refine ⟨⟨fun _ => ⟨id, params, hdecode, hparams, hlive⟩, fun _ => hstatus⟩, fun _ => ?_,
        fun hne => absurd hstatus hne, fun id' params' fault hid' hparams' hfault => ?_⟩
      · refine ⟨id, params, hdecode, hparams, Monitor.mem_ids_start params hresult, ?_, ?_⟩
        · intro hmem
          exact (Monitor.start_of_registered params (hids id hmem) (Registry.mem_ids.mp hmem)).2
        · intro habsent
          exact Monitor.monitor_start_of_absent params (Monitor.not_mem_ids_iff.mp habsent) hresult
      · obtain rfl : id = id' := Option.some.inj (hdecode.symm.trans hid')
        obtain rfl : params = params' := Except.ok.inj (hparams.symm.trans hparams')
        rw [hresult] at hfault
        cases hfault
    · -- it fails
      have hne : (a.startFor id r).2.1.status ≠ 201 := by
        rw [hresponse]
        exact Nat.ne_of_beq_eq_false rfl
      refine ⟨⟨fun h201 => absurd h201 hne, ?_⟩, fun h201 => absurd h201 hne, fun _ => ⟨?_, ?_⟩,
        fun id' params' fault' hid' hparams' hfault => ?_⟩
      · rintro ⟨id', params', hid', hparams', hlive⟩
        obtain rfl : id = id' := Option.some.inj (hdecode.symm.trans hid')
        obtain rfl : params = params' := Except.ok.inj (hparams.symm.trans hparams')
        rw [(Monitor.result_start_iff params hids).mpr hlive] at hresult
        cases hresult
      · rw [he]
      · rw [hresponse]
        exact List.mem_cons_self
      · obtain rfl : id = id' := Option.some.inj (hdecode.symm.trans hid')
        obtain rfl : params = params' := Except.ok.inj (hparams.symm.trans hparams')
        obtain rfl : fault = fault' := Except.error.inj (hresult.symm.trans hfault)
        rw [hresponse]
        exact Response.holds_ofFault 400 fault.message

theorem stopAnswered (h : r.Deletes written) :
    StopAnswered written (a.answer r).2.1 a.monitor (a.answer r).1.monitor := by
  rw [a.answer_of_deletes h]
  cases hdecode : Text.percentDecode? written with
  | none => exact ⟨nofun, fun _ => ⟨hdecode, rfl, rfl⟩⟩
  | some id =>
    have hget := (a.monitor.stop_monitor id).2.2
    refine ⟨fun _ => ⟨id, hdecode, ?_, fun other hother => ?_, ?_⟩, fun hne => absurd rfl hne⟩
    · rw [Monitor.not_mem_ids_iff]
      exact (hget id).trans (if_pos rfl)
    · exact (hget other).trans (if_neg hother)
    · exact a.monitor.monitor_stop id

/-- **What an answer tells**, where every id that is registered names a directory. -/
theorem answered (hids : ∀ id ∈ a.monitor.instances.ids, isInstanceId id = true) (r : Request) :
    Answered r (a.answer r).2.1 a.monitor (a.answer r).1.monitor := by
  have hread : ∀ route, (∀ written, route ≠ .workload written) → r.method = "GET" →
      Route.ofTarget? r.target = some route → (a.answer r).2.1 = a.read route := by
    intro route hroute hmethod htarget
    have hallowed : r.method ∈ route.allowed := by
      rw [hmethod]
      cases route with
      | workload written => exact absurd rfl (hroute written)
      | _ => exact List.mem_cons_self
    have hhead : (r.method == "HEAD") = false := by rw [hmethod]; rfl
    unfold answer
    rw [htarget]
    dsimp only
    rw [if_neg (not_not_intro hallowed)]
    cases route with
    | workload written => exact absurd rfl (hroute written)
    | _ => simp [hhead]
  refine ⟨fun _ => startAnswered hids, fun _ => stopAnswered, ?_, ?_, ?_, ?_⟩
  · intro hposts hdeletes
    rw [(a.answer_of_others hposts hdeletes).1]
  · intro hmethod htarget
    rw [hread .instances nofun hmethod htarget]
    exact Response.holds_ofJson (Json.isText_strings _)
  · intro hmethod htarget
    rw [hread .average nofun hmethod htarget]
    exact a.holds_averageResponse
  · have hworkload : ∀ {written}, Route.ofTarget? r.target = some (.workload written) →
        ¬ (r.method ∈ ["GET", "HEAD"] ∧ Route.ofTarget? r.target = some .systemInfo ∧
          ¬ a.monitor.capacity.IsText) := by
      rintro written hroute ⟨-, hinfo, -⟩
      rw [hroute] at hinfo
      cases hinfo
    by_cases hposts : ∃ written, r.Posts written
    · obtain ⟨written, h⟩ := hposts
      refine iff_of_false (fun h500 => ?_) (hworkload h.2)
      have hrefused := (startAnswered hids h).refused (by rw [h500]; decide)
      rw [h500] at hrefused
      exact absurd hrefused.2 (by decide)
    by_cases hdeletes : ∃ written, r.Deletes written
    · obtain ⟨written, h⟩ := hdeletes
      refine iff_of_false (fun h500 => ?_) (hworkload h.2)
      have hunread := (stopAnswered (a := a) h).unread (by rw [h500]; decide)
      rw [h500] at hunread
      exact absurd hunread.2.2 (by decide)
    · exact (a.answer_of_others (fun written h => hposts ⟨written, h⟩)
        fun written h => hdeletes ⟨written, h⟩).2

end Agent

/-! ### Clients, the loop and direct calls -/

/-- What happens around an agent. -/
inductive Deed where
  /-- A request of a client that has none waiting. -/
  | arrive (client : ℕ) (r : Request)
  /-- The request of a client gets its turn and is answered. -/
  | serve (client : ℕ)
  /-- A client hangs up. -/
  | leave (client : ℕ)
  /-- Time goes by, and the loop and the forwarder do what is due. -/
  | pass (span : Span) (wall : Timestamp) (given : Answers)
  /-- Time goes by, and whatever is due has to wait. -/
  | stall (span : Span) (wall : Timestamp)
  | poll (given : Answers)
  | send
  /-- The program calls the monitor itself. -/
  | start (id : String) (params : InstanceParams)
  | stop (id : String)
  | close
  | takeReceiver
  | receive
  | dropReceiver
  | forward

/-- An agent with the requests that wait. -/
structure Server where
  agent : Agent
  /-- The request of each client that waits for an answer. -/
  waiting : ℕ → Option Request := fun _ => none

namespace Server

/-- What a deed makes of the agent, whatever requests wait. -/
def agentAfter (s : Server) : Deed → Agent
  | .arrive _ _ | .leave _ => s.agent
  | .serve client => (s.waiting client).elim s.agent fun r => (s.agent.answer r).1
  | .pass span wall given => (s.agent.pass span wall given).1
  | .stall span wall => { s.agent with elapsed := s.agent.elapsed + span.nanos, wall }
  | .poll given => (s.agent.poll given).1
  | .send => s.agent.send.1
  | .start id params => (s.agent.adopt (s.agent.monitor.start id params)).1
  | .stop id => (s.agent.adopt (s.agent.monitor.stop id)).1
  | .close => s.agent.close.1
  | .takeReceiver => s.agent.takeReceiver.1
  | .receive => s.agent.receive.1
  | .dropReceiver => s.agent.dropReceiver
  | .forward => s.agent.forward.1

/-- What a deed makes of the requests that wait. -/
def waitingAfter (s : Server) : Deed → ℕ → Option Request
  | .arrive client r =>
    Function.update s.waiting client (some ((s.waiting client).getD r))
  | .serve client | .leave client => Function.update s.waiting client none
  | _ => s.waiting

/-- One deed. -/
def step (s : Server) (d : Deed) : Server := ⟨s.agentAfter d, s.waitingAfter d⟩

/-- The answer that is given at a deed, with its request. -/
def answer? (s : Server) : Deed → Option (Request × Response)
  | .serve client => (s.waiting client).map fun r => (r, (s.agent.answer r).2.1)
  | _ => none

/-- The server behind deeds. -/
def after (s : Server) : List Deed → Server
  | [] => s
  | d :: deeds => (s.step d).after deeds

/-- What a deed does under the lock of the monitor. -/
def work (s : Server) : Deed → List Operation
  | .serve client => ((s.waiting client).bind Request.operation?).toList
  | .pass span wall given =>
    s.agent.runner.bodies (.pass span wall ::
      { s.agent with elapsed := s.agent.elapsed + span.nanos, wall }.turns given)
  | .poll given => [.poll given s.agent.wall]
  | .send => [.send s.agent.wall]
  | .start id params => [.start id params]
  | .stop id => [.stop id]
  | _ => []

/-- What deeds do under the lock of the monitor. -/
def works (s : Server) : List Deed → List Operation
  | [] => []
  | d :: deeds => s.work d ++ (s.step d).works deeds

/-- A deed does to the monitor what it does under the lock. -/
theorem monitor_step (s : Server) (d : Deed) :
    (s.step d).agent.monitor = s.agent.monitor.after (s.work d) := by
  cases d with
  | serve client =>
    simp only [step, agentAfter, work]
    cases s.waiting client with
    | none => rfl
    | some r =>
      rw [Option.elim_some, Option.bind_some, Agent.monitor_answer]
  | pass span wall given =>
    have hrunner := s.agent.runner_pass given span wall
    have hmonitor := Runner.monitor_after s.agent.runner (.pass span wall ::
      { s.agent with elapsed := s.agent.elapsed + span.nanos, wall }.turns given)
    rw [← hrunner] at hmonitor
    exact hmonitor
  | poll given =>
    obtain ⟨queue, hqueue⟩ := Agent.carryOutAll_eq
      { s.agent with monitor := s.agent.monitor.polled given s.agent.wall }
      (s.agent.monitor.pollEvents given s.agent.wall)
    show (Agent.carryOutAll _ _).1.monitor = _
    rw [hqueue]
    rfl
  | send =>
    obtain ⟨queue, hqueue⟩ := s.agent.carryOutAll_eq (s.agent.monitor.sendEvents s.agent.wall)
    show (s.agent.carryOutAll _).1.monitor = _
    rw [hqueue]
    rfl
  | close => exact s.agent.monitor_close
  | takeReceiver =>
    simp only [step, agentAfter, Agent.takeReceiver]
    split <;> rfl
  | receive =>
    simp only [step, agentAfter, Agent.receive]
    split <;> rfl
  | dropReceiver =>
    simp only [step, agentAfter, Agent.dropReceiver]
    split <;> rfl
  | forward =>
    simp only [step, agentAfter, Agent.forward]
    split
    · simp only [Agent.serveForwarder]
      split <;> rfl
    · rfl
  | _ => rfl

/-- **Deeds do to the monitor what one run does**, that of what they do under its lock. -/
theorem monitor_after : ∀ (s : Server) (deeds : List Deed),
    (s.after deeds).agent.monitor = s.agent.monitor.after (s.works deeds)
  | _, [] => rfl
  | s, d :: deeds => by
    rw [after, monitor_after (s.step d) deeds, monitor_step, works, Monitor.after_append]

/-- An agent as it is built, with no request waiting. -/
def idle (m : Monitor) (wall : Timestamp) (sink : AlertSink) (queue : Option (Queue Snapshot)) :
    Server := { agent := Agent.ofMonitor m wall sink queue }

/-- **What requests do to the registry.** However requests of any number of clients, the ticks
of the loop and direct calls follow on each other, the ids that are registered ascend and are
those whose last change was a start, by a request or by a call. Every request that waits is
answered when it gets its turn, its answer tells what it has done, and it is that of a fault
of the server only where the capacities are asked for and cannot be written. -/
theorem answered_of_deeds {b : Blueprint} {a₀ : Answers} {m : Monitor}
    (hm : (Monitor.build b a₀).result = .ok m) (wall : Timestamp) (sink : AlertSink)
    (queue : Option (Queue Snapshot)) (deeds : List Deed) :
    let s := (idle m wall sink queue).after deeds
    let ops := (idle m wall sink queue).works deeds
    s.agent.monitor = m.after ops ∧
      s.agent.monitor.instances.ids.Pairwise (· < ·) ∧
      (∀ id, id ∈ s.agent.monitor.instances.ids ↔
        ∃ params, (Monitor.changes id m ops).getLast? = some (.start id params)) ∧
      ∀ client r, s.waiting client = some r →
        ∃ response, s.answer? (.serve client) = some (r, response) ∧
          Answered r response s.agent.monitor (s.step (.serve client)).agent.monitor := by
  intro s ops
  have hrun : s.agent.monitor = m.after ops := monitor_after _ deeds
  have absent : ∀ id, m.instances.get? id = none := Monitor.get?_of_build hm
  refine ⟨hrun, s.agent.monitor.instances.ids_sorted, fun id => ?_, fun client r hr => ?_⟩
  · rw [hrun]
    exact Monitor.mem_ids_after (absent id) ops
  · have hids : ∀ id ∈ s.agent.monitor.instances.ids, isInstanceId id = true := by
      intro id hid
      rw [hrun] at hid
      exact Monitor.isInstanceId_of_mem_ids (absent id) hid
    refine ⟨(s.agent.answer r).2.1, ?_, ?_⟩
    · rw [answer?, hr]
      rfl
    · have hstep : (s.step (.serve client)).agent = (s.agent.answer r).1 := by
        rw [step, agentAfter, hr]
        rfl
      rw [hstep]
      exact Agent.answered hids r

/-- The capacities of a node with a partition under a path that is no text are asked for in
vain: the answer is that of a fault of the server. -/
theorem not_sound_of_nameless :
    ¬ ∀ (b : Blueprint) (a₀ : Answers) (m : Monitor), (Monitor.build b a₀).result = .ok m →
      ∀ r : Request, ((Agent.ofMonitor m ⟨0, false⟩ .nowhere none).answer r).2.1.status ≠ 500 := by
  intro h
  let b : Blueprint :=
    { settings := { partitions := [⟨"data", [], .nameless⟩] }
      nodeInfo := some (.ok { nodeId := "node0", cpus := 2, ram := 4000 }) }
  let m : Monitor := Monitor.initial b "node0" ⟨2, 4000, [⟨"data", [], .nameless, 100⟩]⟩ []
  let r : Request := { method := "GET", target := "/system-info" }
  have hroute : Route.ofTarget? r.target = some .systemInfo := by decide +kernel
  have hothers := (Agent.ofMonitor m ⟨0, false⟩ .nowhere none).answer_of_others (r := r)
    (fun _ h => absurd h.1 (by decide)) (fun _ h => absurd h.1 (by decide))
  refine h b (Monitor.underLoad 10 none).answers m rfl r
    (hothers.2.mpr ⟨?_, hroute, fun htext => ?_⟩)
  · exact List.mem_cons_self
  · exact absurd (htext ⟨"data", [], .nameless, 100⟩ List.mem_cons_self)
      (by decide +kernel : ¬ OsPath.nameless.IsText)

/-- Parameters that name an instance, and nothing else. -/
def bareParams : Json :=
  .object [(some "instance_ident", .object [(some "serviceId", .text (some "s")),
    (some "subjectId", .text (some "t")), (some "instance", .number (.unsigned 0))])]

/-- A request for an instance under the id `a`, with its letter escaped. -/
def escapedStart : Request where
  method := "POST"
  target := "/instances/%61"
  contentType := some "application/json"
  body := bareParams.toText

/-- The parameters in the body of that request. -/
def escapedParams : InstanceParams where
  ident := { service := "s", subject := "t", number := 0 }

theorem posts_escapedStart : escapedStart.Posts "%61".toList := ⟨rfl, by decide +kernel⟩

theorem percentDecode?_escaped : Text.percentDecode? "%61".toList = some "a" := by decide +kernel

theorem paramsOf_escapedStart : Agent.paramsOf escapedStart = .ok escapedParams := by
  have htype : escapedStart.contentType.any isJsonType = true := by decide +kernel
  have hsize : ¬ Agent.bodyLimit < escapedStart.body.utf8ByteSize := by decide +kernel
  have hsound : Json.IsSound 2 bareParams :=
    .object (by simp) (List.forall_mem_singleton.mpr (.object (by simp) (by
      simp only [List.forall_mem_cons]
      exact ⟨.text _, .text _, .number (Json.Number.isWritable_unsigned 0), nofun⟩)))
  have hread : (Json.read escapedStart.body.toList).1 = bareParams := by
    rw [escapedStart, Json.read_toText hsound]
    simp [bareParams, Json.membersAsRead_eq, Json.asRead, Json.Number.asRead,
      Json.Number.read_unsigned]
  unfold Agent.paramsOf
  rw [htype, if_neg (by decide), if_neg hsize, hread]
  rfl

theorem operation?_escapedStart : escapedStart.operation? = some (.start "a" escapedParams) := by
  unfold Request.operation?
  rw [posts_escapedStart.2]
  dsimp only
  rw [if_pos posts_escapedStart.1, percentDecode?_escaped, paramsOf_escapedStart]
  rfl

/-- A client asks for an instance that the program then registers itself. -/
def lateRequest : List Deed :=
  [.arrive 0 escapedStart, .start "a" Monitor.worker,
    .poll (Monitor.underLoad 95 none).answers]

/-- The request gets its turn behind the poll. It is accepted, and changes nothing. -/
theorem answered_of_deeds_lateRequest :
    let s := (idle Monitor.smallMonitor ⟨1000, false⟩ .nowhere none).after lateRequest
    ∃ response, s.answer? (.serve 0) = some (escapedStart, response) ∧ response.status = 201 ∧
      (s.step (.serve 0)).agent.monitor = s.agent.monitor := by
  intro s
  obtain ⟨-, -, hids, hanswer⟩ :=
    answered_of_deeds Monitor.build_smallNode ⟨1000, false⟩ .nowhere none lateRequest
  have hlast : (Monitor.changes "a" Monitor.smallMonitor
      ((idle Monitor.smallMonitor ⟨1000, false⟩ .nowhere none).works lateRequest)).getLast? =
        some (.start "a" Monitor.worker) := rfl
  have ha : "a" ∈ s.agent.monitor.instances.ids := (hids "a").mpr ⟨_, hlast⟩
  have hwaiting : s.waiting 0 = some escapedStart := by
    simp [s, lateRequest, after, step, waitingAfter, idle]
  obtain ⟨response, hresponse, htold⟩ := hanswer 0 escapedStart hwaiting
  have hstart := htold.start _ posts_escapedStart
  have hstatus : response.status = 201 :=
    hstart.accepted.mpr ⟨"a", _, percentDecode?_escaped, paramsOf_escapedStart, Or.inl ha⟩
  obtain ⟨id, params, hid, -, -, hknown, -⟩ := hstart.started hstatus
  obtain rfl : "a" = id := Option.some.inj (percentDecode?_escaped.symm.trans hid)
  exact ⟨response, hresponse, hstatus, hknown ha⟩

end Server

end QuotaWatch
