import LogDispatch.Proofs.Appending
import LogDispatch.Proofs.Streaming

/-! What becomes of lines. Every line that is queued to a writer is taken in its turn and answered for once, by what came
    of the batch that it was in, whatever batches are made and whichever of them fail (`queued_lines_answered`). Batches
    that are written are appended to the file in the order of the queue. -/

namespace LogDispatch

namespace Engine

/-- What has become of the lines that were queued to a writer. -/
structure Fared (w : WriterId) (es : List Event) (e : Engine) : Prop where
  /-- A line is the text of a delivery, and its acknowledgement is for the route of that. -/
  lines : ∀ job ∈ queued w es, ∃ ev ∈ es, ∃ g fanOut d r, ev.action? = some (.attempt g fanOut d) ∧
    g.routes[d.route]? = some r ∧ d.text = .ok job.text ∧ e.routeOf job.ack = r.name
  /-- No two lines have one acknowledgement. -/
  apart : ((queued w es).map File.Job.ack).Nodup
  taken : (batches w es).flatten ++ e.files.queue w = queued w es
  sizes : ∀ batch ∈ batches w es, 0 < batch.length ∧ batch.length ≤ File.batchLimit
  /-- All batches have been written, or could not be, but the last one perhaps. -/
  written : ∃ unwritten, unwritten.length ≤ 1 ∧ batches w es = (writings w es).map Written.batch ++ unwritten
  /-- A line is answered for after its batch has been written or could not be, by what came of that. -/
  replied : served w es <+: (writings w es).flatMap e.answersDue
  inOrder : (served w es).map Prod.fst <+: (queued w es).map File.Job.ack
  /-- The first answer of an acknowledgement is that of the writer, which gives one at most. -/
  once : ∀ job ∈ queued w es, (∀ ev ∈ es, ev.isHostAnswer job.ack = false) →
    (answers es).filter (·.1 == job.ack) = (served w es).filter (·.1 == job.ack) ∧
      ((served w es).filter (·.1 == job.ack)).length ≤ 1

/-- All lines that were queued to a writer have been answered for. -/
structure Done (w : WriterId) (es : List Event) (e : Engine) : Prop where
  written : ((writings w es).map Written.batch).flatten = queued w es
  replied : served w es = (writings w es).flatMap e.answersDue
  answered : (served w es).map Prod.fst = (queued w es).map File.Job.ack
  once : ∀ job ∈ queued w es, (∀ ev ∈ es, ev.isHostAnswer job.ack = false) →
    ((answers es).filter (·.1 == job.ack)).length = 1

section fared
variable {e e' : Engine} {op : Op} {fx : List Effect} {es es' : List Event} {w : WriterId} {setup : Setup}
  {files : File.Store} {config : Config} {unwritten : List (List File.Job)} {owed : List (AckId × Answer)} {effort : Nat}

/-- Where the lines come from. -/
theorem Exposed.attempted (h : Exposed (start setup files config) es e) {job : File.Job} (hjob : job ∈ lines w es e) :
    ∃ ev ∈ es, ∃ g fanOut d r, ev.action? = some (.attempt g fanOut d) ∧ g.routes[d.route]? = some r ∧
      d.text = .ok job.text ∧ e.routeOf job.ack = r.name ∧ job.ack < e.acks.length := by
  induction h with
  | refl => cases hjob
  | @step es e₁ e₂ op fx hr hs ih =>
    obtain ⟨hmore, hsame⟩ := acks_step hs
    rcases mem_lines_step hs hjob with hjob | htaking
    · obtain ⟨ev, hev, g, fanOut, d, r, ha, hr, htext, hroute, hlt⟩ := ih hjob
      exact ⟨ev, List.mem_append_left _ hev, g, fanOut, d, r, ha, hr, htext, (hsame _ hlt).trans hroute,
        Nat.lt_of_lt_of_le hlt hmore⟩
    · cases htaking with
      | @attempt g fanOut d r outlet ha hroute _ _ htext hack hacks =>
        dsimp only at hack hacks
        refine ⟨_, List.mem_append_right _ List.mem_cons_self, g, fanOut, d, r, ha, hroute, htext, ?_, ?_⟩
        · rw [routeOf, hacks, hack, List.getElem?_concat_length]
          rfl
        · rw [hacks, hack, List.length_append]
          exact Nat.lt_succ_self _
  | alter _ _ _ ih => exact ih hjob

theorem length_filter_fst (xs : List (AckId × Answer)) (i : AckId) :
    (xs.filter (·.1 == i)).length = (xs.map Prod.fst).count i := by
  rw [← List.countP_eq_length_filter, List.count, List.countP_map]
  rfl

theorem Exposed.fared (hfiles : files.writers = []) (h : Exposed (start setup files config) es e) (w : WriterId) :
    Fared w es e := by
  obtain ⟨unwritten, owed, effort, hserves⟩ := h.serves hfiles w
  refine ⟨fun job hjob => ?_, hserves.tracked.nodup, hserves.taken, hserves.sizes, ⟨unwritten, ?_, hserves.written⟩,
    ⟨owed, hserves.replied.symm⟩, ?_, fun job hjob hhost => ⟨(h.once hfiles (mem_lines_of_queued hjob) hhost).same, ?_⟩⟩
  · obtain ⟨ev, hev, g, fanOut, d, r, ha, hr, htext, hroute, -⟩ := h.attempted (mem_lines_of_queued hjob)
    exact ⟨ev, hev, g, fanOut, d, r, ha, hr, htext, hroute⟩
  · cases hserves.phase <;> simp
  · exact ⟨_, by rw [← hserves.served_eq, List.append_assoc, List.append_assoc]⟩
  · rw [length_filter_fst]
    exact List.nodup_iff_count_le_one.mp hserves.nodup _

/-- A writer that has nothing to do has answered for all its lines. -/
theorem Exposed.done (hfiles : files.writers = []) (h : Exposed (start setup files config) es e)
    (hidle : e.files.isServing w = false) (hempty : e.files.queue w = []) : Done w es e := by
  obtain ⟨unwritten, owed, effort, hserves⟩ := h.serves hfiles w
  obtain ⟨rfl, rfl⟩ := hserves.phase.of_idle hidle
  have hwritten := hserves.written
  have htaken := hserves.taken
  have hanswered := hserves.served_eq
  rw [List.append_nil] at hwritten
  rw [hempty, List.append_nil] at htaken
  simp only [hempty, List.map_nil, List.flatten_nil, List.append_nil] at hanswered
  refine ⟨by rw [← hwritten, htaken], ?_, hanswered, fun job hjob hhost => ?_⟩
  · rw [hserves.replied, List.append_nil]
  · rw [(h.once hfiles (mem_lines_of_queued hjob) hhost).same, length_filter_fst]
    exact List.count_eq_one_of_mem hserves.nodup (hanswered ▸ List.mem_map_of_mem hjob)

/-- Each line of a queue costs its writer at most so many steps: it takes it, writes it, answers for it and rests. -/
theorem Exposed.steps_le (hfiles : files.writers = []) (h : Exposed (start setup files config) es e) (w : WriterId) :
    es.countP (Event.isOf w) ≤ 8 * (queued w es).length := by
  obtain ⟨unwritten, owed, effort, hserves⟩ := h.serves hfiles w
  have hsteps := hserves.steps
  omega

/-- A writer that can do nothing more has nothing to do. -/
theorem Exposed.idle_of_stuck (hfiles : files.writers = []) (h : Exposed (start setup files config) es e)
    (hstuck : ∀ op e' fx, e.step? op = some (e', fx) → Event.isOf w ⟨e, op, e', fx⟩ = false) :
    e.files.isServing w = false ∧ e.files.queue w = [] := by
  obtain ⟨unwritten, owed, effort, hserves⟩ := h.serves hfiles w
  have hnothing : ¬(e.files.isServing w = true ∨ e.files.queue w ≠ []) := by
    intro hwork
    obtain ⟨op, e', fx, hs, hown⟩ := hserves.exists_work hwork
    rw [hstuck op e' fx hs] at hown
    cases hown
  simpa using hnothing

/-- The work of a writer that has lost its senders comes to an end, and then all its lines are answered for. -/
structure Ends (w : WriterId) (es es' : List Event) (e' : Engine) : Prop where
  queued : queued w (es ++ es') = LogDispatch.queued w es
  steps : (es ++ es').countP (Event.isOf w) ≤ 8 * (LogDispatch.queued w es).length
  done : (∀ op e'' fx, e'.step? op = some (e'', fx) → Event.isOf w ⟨e', op, e'', fx⟩ = false) → Done w (es ++ es') e'

theorem Exposed.ends (hfiles : files.writers = []) (h : Exposed (start setup files config) es e)
    (hw : w < e.files.writers.length) (hno : ¬HasSender w e) (h' : Exposed e es' e') : Ends w es es' e' := by
  have hall := h.trans h'
  have hqueued : queued w (es ++ es') = queued w es := by
    rw [queued_append, (h'.no_sender hw hno).1, List.append_nil]
  refine ⟨hqueued, hqueued ▸ hall.steps_le hfiles w, fun hstuck => ?_⟩
  obtain ⟨hidle, hempty⟩ := hall.idle_of_stuck hfiles hstuck
  exact hall.done hfiles hidle hempty

/-- Nobody holds a sender to the writer any more: it gets the lines that were in flight, and no others. Those that are
    in flight still can be sent at any time. -/
structure Drains (w : WriterId) (e : Engine) (es' : List Event) (e' : Engine) : Prop where
  holder : ¬HasHolder w e'
  queued : inFlight w e = ↑(LogDispatch.queued w es') + inFlight w e'
  sent : ∀ job ∈ inFlight w e', ∃ task e'' fx, e'.step? (.advance task) = some (e'', fx) ∧
    Event.queued w ⟨e', .advance task, e'', fx⟩ = [job]

theorem Exposed.drains (h : Exposed (start setup files config) es e) (hw : w < e.files.writers.length)
    (hno : ¬HasHolder w e) (h' : Exposed e es' e') : Drains w e es' e' := by
  obtain ⟨hlt, hnone⟩ := h'.no_holder hw hno
  exact ⟨hnone, h'.queued_of_no_holder hw hno, fun job hjob => (h.trans h').exists_send hlt hjob⟩

/-- What a writer has put into the file of a name that nobody else touched. -/
structure Appends (w : WriterId) (name : String) (e : Engine) (es' : List Event) (e' : Engine) : Prop where
  written : ∀ x ∈ writings w es', x.result = .ok ()
  atEnd : e'.AtEnd w name
  content : e'.files.disk.content name =
    e.files.disk.content name ++ File.batchBytes ((writings w es').map Written.batch).flatten
  /-- A writer that had nothing to do before and has nothing to do now has appended all that was queued meanwhile. -/
  all : e.files.isServing w = false → e.files.queue w = [] → e'.files.isServing w = false → e'.files.queue w = [] →
    e'.files.disk.content name = e.files.disk.content name ++
      (queued w es').flatMap fun job => Text.encodeUtf8 job.text ++ [10]

theorem Exposed.appends {name : String} (hfiles : files.writers = []) (h : Exposed (start setup files config) es e)
    (hr : Run e es' e') (hend : e.AtEnd w name) (halone : Alone w name es') : Appends w name e es' e' := by
  obtain ⟨hok, hend', hcontent⟩ := hr.appends hend halone
  refine ⟨hok, hend', hcontent, fun hidle hempty hidle' hempty' => ?_⟩
  have hbefore := (h.done hfiles hidle hempty).written
  have hafter := ((h.trans hr.exposed).done hfiles hidle' hempty').written
  rw [writings_append, queued_append, List.map_append, List.flatten_append, hbefore] at hafter
  rw [hcontent, List.append_cancel_left hafter]
  rfl

end fared

/-- Every line that is queued to a writer is taken in its turn, in a batch that is neither empty nor too long, and answered
    for once, in the order of the queue: by success after its batch has been written, by an error that names its own route
    if the batch could not be written. So it is whatever batches are made and whichever of them fail; both may happen to
    any batch, since the disk may change at any time. Nobody holds a sender to a writer that is closed; it still gets the
    lines whose senders were taken before, and no others. A writer that has no sender at all any more gets no lines, does
    a bounded number of steps, and cannot stop before all its lines are answered for. As long as nobody else touches its
    file, a writer appends all lines to it, each with its end, in the order of the queue. -/
theorem queued_lines_answered {setup : Setup} {files : File.Store} {config : Config} {es : List Event} {e : Engine}
    (hfiles : files.writers = []) (h : Exposed (start setup files config) es e) (w : WriterId) :
    Fared w es e ∧
    (e.files.isServing w = false → e.files.queue w = [] → Done w es e) ∧
    (∀ writer batch result, e.files.writers[w]? = some writer →
      ∃ disk sinks, ((e.altered disk sinks).files.write w batch).2 = result) ∧
    (w < e.files.writers.length → ¬HasSender w e → ∀ es' e', Exposed e es' e' → Ends w es es' e') ∧
    (files.Unshared → Run (start setup files config) es e → ∀ writer, e.files.writers[w]? = some writer →
      writer.isClosed = true → ¬HasHolder w e) ∧
    (w < e.files.writers.length → ¬HasHolder w e → ∀ es' e', Exposed e es' e' → Drains w e es' e') ∧
    (∀ ev ∈ es, ev.before.files.writers.length ≤ w → ∀ sink, ev.after.files.sink? w = some sink →
      ∀ name, sink.LeadsTo ev.after.files.disk name → ev.after.AtEnd w name) ∧
    ∀ name es' e', e.AtEnd w name → Run e es' e' → Alone w name es' → Appends w name e es' e' := by
  refine ⟨h.fared hfiles w, h.done hfiles, ?_, ?_, ?_, ?_, ?_, ?_⟩
  · intro writer batch result hwriter
    exact File.Store.exists_altered_write hwriter batch result
  · intro hw hno es' e' h'
    exact h.ends hfiles hw hno h'
  · intro hunshared hr writer hwriter hclosed
    exact hr.no_holder_of_closed hunshared hwriter hclosed
  · intro hw hno es' e' h'
    exact h.drains hw hno h'
  · intro ev hev hnew sink hsink name hleads
    exact atEnd_made (h.step?_of_mem hev) hnew hsink hleads
  · intro name es' e' hend hr halone
    exact h.appends hfiles hr hend halone

/-- Two routes that stream to one file. -/
def sharing : Config := { routes := some [streamingTo "a" "/logs/app.log", streamingTo "b" "/logs/app.log"] }

/-- The engine is built. -/
def shared : Engine := (plain false [] sharing).after (List.replicate 7 (.advance 0))

/-- A call to both routes by a task, after which so many lines are taken in a batch and answered for. -/
def pair (task : TaskId) (lines steps : Nat) : List Op :=
  [.begin (.call { subject := .tags ["t"] (.text "up"), callback := some 7 })] ++ List.replicate 8 (.advance task) ++
    [.begin (.serve 0 lines)] ++ List.replicate steps (.advance (task + 1))

/-- Both lines of a call are written. -/
def paired : Engine := shared.after (pair 1 2 10)

/-- The same on a disk that is full. -/
def filled : Engine := paired.altered paired.files.disk fun _ => .stream .full none

/-- The engine is shut down when a call has taken the sender for its first line. -/
def untilClosed : List Op :=
  [.begin (.call { subject := .tags ["t"] (.text "up"), callback := some 7 })] ++ List.replicate 5 (.advance 1) ++
    .begin .shutdown :: List.replicate 7 (.advance 2)

def straggling : Engine := shared.after untilClosed

/-- The line is sent, and served. -/
def untilServed : List Op := .advance 1 :: .begin (.serve 0 1) :: List.replicate 6 (.advance 3)

/-- The route and the message of a failure. -/
def failure? : Answer → Option (String × String)
  | .failed (.transport route message) => some (route, message)
  | _ => none

def sharedEvents : List Event := (plain false [] sharing).history (List.replicate 7 (.advance 0))

def pairedEvents : List Event := sharedEvents ++ shared.history (pair 1 2 10)

def filledEvents : List Event := pairedEvents ++ filled.history (pair 3 1 7)

def stragglingEvents : List Event := sharedEvents ++ shared.history untilClosed

theorem run_paired :
    Run (plain false [] sharing) sharedEvents shared ∧ Run shared (shared.history (pair 1 2 10)) paired := by
  have hruns : ((plain false [] sharing).run? (List.replicate 7 (.advance 0))).isSome = true ∧
      (shared.run? (pair 1 2 10)).isSome = true := by decide +kernel
  exact ⟨run_history _ _ hruns.1, run_history _ _ hruns.2⟩

/-- Two lines are written in one batch, and one after them in a batch that fails; a fourth one waits. The first two are
    appended to the file. A line is in flight when the writer is closed; it is sent and answered for all the same, and no
    more lines come. -/
theorem paired_lines_answered :
    (∃ es e, Exposed (plain false [] sharing) es e ∧ (batches 0 es).map List.length = [2, 1] ∧
      (e.files.queue 0).length = 1 ∧
      (served 0 es).map (failure? ∘ Prod.snd) = [none, none, some ("a", "No space left on device (os error 28)")] ∧
      Fared 0 es e) ∧
    (∃ es, (queued 0 es).length = 2 ∧ Appends 0 "app.log" shared es paired) ∧
    ∃ es e es' e', Run (plain false [] sharing) es e ∧ queued 0 es = [] ∧ (inFlight 0 e).card = 1 ∧ Drains 0 e es' e' ∧
      Run e es' e' ∧ (queued 0 es').length = 1 ∧ Done 0 (es ++ es') e' ∧
      ∀ es'' e'', Exposed e' es'' e'' → Ends 0 (es ++ es') es'' e'' := by
  have hfiles : ({ disk := { root := ⟨"/logs"⟩ } } : File.Store).writers = [] := rfl
  have hunshared : ({ disk := { root := ⟨"/logs"⟩ } } : File.Store).Unshared := fun _ => rfl
  obtain ⟨hshared, hpaired⟩ := run_paired
  refine ⟨?_, ?_, ?_⟩
  · have hstate : (filled.run? (pair 3 1 7)).isSome = true ∧ (batches 0 filledEvents).map List.length = [2, 1] ∧
        ((filled.after (pair 3 1 7)).files.queue 0).length = 1 ∧ (served 0 filledEvents).map (failure? ∘ Prod.snd) =
          [none, none, some ("a", "No space left on device (os error 28)")] := by decide +kernel
    obtain ⟨hrun, hsizes, hwaiting, hserved⟩ := hstate
    have hexposed : Exposed (plain false [] sharing) filledEvents (filled.after (pair 3 1 7)) :=
      ((hshared.trans hpaired).exposed.alter _ _).trans (run_history _ _ hrun).exposed
    exact ⟨_, _, hexposed, hsizes, hwaiting, hserved, (queued_lines_answered hfiles hexposed 0).1⟩
  · have hstate : shared.AtEnd 0 "app.log" ∧ Alone 0 "app.log" (shared.history (pair 1 2 10)) ∧
        (queued 0 (shared.history (pair 1 2 10))).length = 2 := by decide +kernel
    obtain ⟨hend, halone, htwo⟩ := hstate
    obtain ⟨-, -, -, -, -, -, -, happends⟩ := queued_lines_answered hfiles hshared.exposed 0
    exact ⟨_, htwo, happends _ _ _ hend hpaired halone⟩
  · have hstate : (shared.run? untilClosed).isSome = true ∧ (queued 0 stragglingEvents).length = 0 ∧
        (inFlight 0 straggling).card = 1 ∧ (∃ writer ∈ straggling.files.writers[0]?, writer.isClosed = true) := by
      decide +kernel
    have hafter : (straggling.run? untilServed).isSome = true ∧ (queued 0 (straggling.history untilServed)).length = 1 ∧
        (inFlight 0 (straggling.after untilServed)).card = 0 ∧ 0 < (straggling.after untilServed).files.writers.length ∧
        (straggling.after untilServed).files.isServing 0 = false ∧ (straggling.after untilServed).files.queue 0 = [] := by
      decide +kernel
    obtain ⟨hrun, hnone, hone, writer, hwriter, hclosed⟩ := hstate
    obtain ⟨hrun', hone', hflight, hlt', hidle, hempty⟩ := hafter
    have hstraggling : Run (plain false [] sharing) stragglingEvents straggling := hshared.trans (run_history _ _ hrun)
    have hserved : Run straggling (straggling.history untilServed) (straggling.after untilServed) := run_history _ _ hrun'
    obtain ⟨-, -, -, -, hheld, hdrains, -⟩ := queued_lines_answered hfiles hstraggling.exposed 0
    have hholder := hheld hunshared hstraggling writer hwriter hclosed
    have hdrained := hdrains (List.getElem?_eq_some_iff.mp hwriter).1 hholder _ _ hserved.exposed
    obtain ⟨-, hdone, -, hends, -⟩ := queued_lines_answered hfiles (hstraggling.trans hserved).exposed 0
    have hsender : ¬HasSender 0 (straggling.after untilServed) :=
      not_or.mpr ⟨hdrained.holder, not_not.mpr (Multiset.card_eq_zero.mp hflight)⟩
    exact ⟨_, _, _, _, hstraggling, List.length_eq_zero_iff.mp hnone, hone, hdrained, hserved, hone', hdone hidle hempty,
      hends hlt' hsender⟩

end Engine

end LogDispatch
