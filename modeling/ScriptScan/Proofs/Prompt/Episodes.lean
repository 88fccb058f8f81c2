-- SUMMARY: What a prompt session leaves on error streams that take everything: one episode after the other.
import ScriptScan.Proofs.Prompt.Session
import ScriptScan.Proofs.Report.Recording
import ScriptScan.Proofs.Text.Encoding

/-!
# Episodes

On streams that take everything, how reports look and which log records are kept decides nothing: a session comes to
the same result, leaves the same output and goes through the same episodes. `Settles` says so of a part of a session,
with what is true of its result and its episodes; parts are put together by `Settles.bind`.
-/

namespace ScriptScan

open Console (Entry reports reports_append)

/-- A stretch of a run, with all that it leaves on the error stream. -/
inductive Episode where
  /-- A script is about to be read. -/
  | reading (path : String)
  | scan (source : String)
  /-- A line of a session has been answered. -/
  | answered (source : String)

namespace Episode

def entries : Episode → List Entry
  | .reading path => [.record (.runningScript path)]
  | .scan source => (Use.scan source).entries
  | .answered source => [.record (.scannedLine (ScriptScan.scan source).erred)]

/-- What is scanned, if anything is. -/
def source? : Episode → Option String
  | .scan source => some source
  | .reading _ | .answered _ => none

end Episode

/-- The sources that are scanned, in order. -/
def scanned (es : List Episode) : List String := es.filterMap Episode.source?

theorem scanned_append (xs ys : List Episode) : scanned (xs ++ ys) = scanned xs ++ scanned ys :=
  List.filterMap_append

/-- Only scans report. -/
theorem reports_episodes (es : List Episode) :
    reports (es.flatMap Episode.entries) = (scanned es).flatMap fun source => (scan source).diagnostics := by
  induction es with
  | nil => rfl
  | cons e es ih =>
    rw [List.flatMap_cons, reports_append, ih]
    cases e with
    | scan source =>
      rw [Episode.entries, Use.reports_entries]
      rfl
    | reading | answered => rfl

/-! ## Parts of a session -/

/-- Whatever the recording is and has taken before, a part of a session comes to the same result, leaves the same
output and adds the same episodes. -/
def Unfolds {α : Type} (part : (R : Recording) → Session R.Stream α) (out : Sink) (result : Except Failure α)
    (left : Sink) (es : List Episode) : Prop :=
  ∀ R earlier, part R ⟨out, R.holding earlier⟩ = (result, ⟨left, R.holding (earlier ++ es.flatMap Episode.entries)⟩)

/-- Over any output a part of a session unfolds, and `P` is true of the result and the episodes. -/
def Settles {α : Type} (part : (R : Recording) → Session R.Stream α) (P : Except Failure α → List Episode → Prop) :
    Prop :=
  ∀ out, ∃ result left es, Unfolds part out result left es ∧ P result es

section Settles

variable {α β : Type} {part : (R : Recording) → Session R.Stream α} {next : (R : Recording) → α → Session R.Stream β}

theorem Unfolds.bind {out mid left : Sink} {a : α} {result : Except Failure β} {xs ys : List Episode}
    (hpart : Unfolds part out (.ok a) mid xs) (hnext : Unfolds (next · a) mid result left ys) :
    Unfolds (fun R => part R >>= next R) out result left (xs ++ ys) := by
  intro R earlier
  have hrest := hnext R (earlier ++ xs.flatMap Episode.entries)
  rw [List.append_assoc, ← List.flatMap_append] at hrest
  simp only [Session.bind_apply, hpart R earlier, hrest]

theorem Unfolds.bind_error {out left : Sink} {failure : Failure} {es : List Episode}
    (hpart : Unfolds part out (.error failure) left es) :
    Unfolds (fun R => part R >>= next R) out (.error failure) left es := by
  intro R earlier
  simp only [Session.bind_apply, hpart R earlier]

/-- A part that fails is the last one; otherwise the next one adds its own episodes. -/
theorem Settles.bind {P : Except Failure α → List Episode → Prop} {S : Except Failure β → List Episode → Prop}
    (hpart : Settles part P) (hfail : ∀ failure xs, P (.error failure) xs → S (.error failure) xs)
    (hnext : ∀ a xs, P (.ok a) xs → Settles (next · a) fun result ys => S result (xs ++ ys)) :
    Settles (fun R => part R >>= next R) S := by
  intro out
  obtain ⟨result, mid, xs, hunfolds, hP⟩ := hpart out
  cases result with
  | error failure => exact ⟨_, mid, xs, hunfolds.bind_error, hfail failure xs hP⟩
  | ok a =>
    obtain ⟨result, left, ys, hrest, hS⟩ := hnext a xs hP mid
    exact ⟨result, left, xs ++ ys, hunfolds.bind hrest, hS⟩

theorem Settles.mono {P S : Except Failure α → List Episode → Prop} (h : Settles part P)
    (himp : ∀ result es, P result es → S result es) : Settles part S := by
  intro out
  obtain ⟨result, left, es, hunfolds, hP⟩ := h out
  exact ⟨result, left, es, hunfolds, himp result es hP⟩

/-- A part that leaves the error stream alone. -/
theorem settles_of_silent (act : Sink → Except Failure α × Sink)
    (h : ∀ R s, part R s = ((act s.out).1, { s with out := (act s.out).2 })) : Settles part fun _ es => es = [] := by
  intro out
  refine ⟨(act out).1, (act out).2, [], ?_, rfl⟩
  intro R earlier
  rw [h, List.flatMap_nil, List.append_nil]

end Settles

theorem settles_say (text : String) : Settles (fun _ => Session.say text) fun _ es => es = [] := by
  refine settles_of_silent
    (fun out => ((out.put text .output).2.elim (.ok ()) .error, (out.put text .output).1)) ?_
  intro R s
  rw [Session.say]
  rcases s.out.put text .output with ⟨left, _ | failure⟩ <;> rfl

theorem settles_ask : Settles (fun _ => Session.ask) fun _ es => es = [] := by
  refine (settles_say "> ").bind (fun _ _ h => h) ?_
  rintro ⟨⟩ xs rfl
  refine settles_of_silent (fun out => (match out.flush with
    | some fault => .error (.output fault.message)
    | none => .ok (), out)) ?_
  intro R s
  have hget : (get : Session R.Stream (Streams R.Stream)) s = (.ok s, s) := rfl
  rw [Session.bind_apply, hget]
  simp only
  cases s.out.flush <;> rfl

/-! ## Answers -/

/-- A listing does not depend on the reporter of its scan. -/
theorem listSource_eq {ρ : Type} [Reporter ρ] (json : Bool) (source : String) (out : Sink) (r : ρ) :
    listSource json source out r =
      match listTokens json (scan source).tokens.toList out with
      | (left, some failure) => ⟨left, (scanInto source r).reporter, .error failure⟩
      | (left, none) => ⟨left, (scanInto source r).reporter, .ok (scan source).erred⟩ := by
  rcases hlist : listTokens json (scan source).tokens.toList out with ⟨left, _ | failure⟩ <;>
    simp only [listSource, tokens_scanInto_eq_scan, erred_scanInto_eq_scan, hlist]

theorem settles_answer (json : Bool) (source : String) :
    Settles (fun R => Session.answer ⟨json, R.color⟩ source) fun result es =>
      es = [.scan source] ∧ ∀ erred, result = .ok erred → erred = (scan source).erred := by
  intro out
  cases hlist : listTokens json (scan source).tokens.toList out with
  | mk left failure =>
    refine ⟨failure.elim (.ok (scan source).erred) .error, left, [.scan source], ?_, rfl, ?_⟩
    · intro R earlier
      obtain ⟨hstream, hfault⟩ := R.reporter_scanInto earlier source
      have hentries : [Episode.scan source].flatMap Episode.entries = (Use.scan source).entries := List.append_nil _
      rw [← hentries] at hstream
      simp only [Session.answer, listSource_eq, hlist]
      cases failure <;> simp only [hfault] <;> exact Prod.ext rfl (congrArg (Streams.mk left) hstream)
    · intro erred herred
      cases failure with
      | some failure => cases herred
      | none => exact (Except.ok.inj herred).symm

theorem settles_logScanned (source : String) :
    Settles (fun _ => Session.logScanned (scan source).erred) fun _ es => es = [.answered source] := by
  intro out
  refine ⟨.ok (), out, [.answered source], ?_, rfl⟩
  intro R earlier
  exact Prod.ext rfl (congrArg (Streams.mk out) (R.log_record earlier _))

/-! ## Sessions -/

/-- The sources that are scanned are the first texts of `inputs`, and all of them unless there is a failure. -/
def Follows (inputs : List (List UInt8)) (result : Except Failure Unit) (es : List Episode) : Prop :=
  (scanned es).map bytes <+: inputs ∧ (result = .ok () → (scanned es).map bytes = inputs)

theorem settles_turn (json : Bool) (line : List UInt8) :
    Settles (fun R => Session.turn ⟨json, R.color⟩ line) (Follows [line]) := by
  cases hsource : Utf8.decode? line with
  | none =>
    intro out
    refine ⟨.error (.input invalidText), out, [], ?_, List.nil_prefix, nofun⟩
    intro R earlier
    simp only [Session.turn, hsource, List.flatMap_nil, List.append_nil]
    rfl
  | some source =>
    have hline : bytes source = line := decode?_eq_some_iff_bytes.mp hsource
    have hfollows {result : Except Failure Unit} {es : List Episode} (h : scanned es = [source]) :
        Follows [line] result es := by
      rw [Follows, h, List.map_singleton, hline]
      exact ⟨List.prefix_refl _, fun _ => rfl⟩
    simp only [Session.turn, hsource]
    refine (settles_answer json source).bind ?_ ?_
    · rintro failure xs ⟨rfl, -⟩
      exact hfollows rfl
    · rintro erred xs ⟨rfl, herred⟩
      obtain rfl := herred erred rfl
      refine (settles_logScanned source).bind ?_ ?_
      · rintro failure ys rfl
        exact hfollows rfl
      · rintro ⟨⟩ ys rfl
        refine settles_ask.mono ?_
        rintro result zs rfl
        exact hfollows rfl

theorem settles_turns (json : Bool) (ls : List (List UInt8)) :
    Settles (fun R => ls.forM (Session.turn ⟨json, R.color⟩)) (Follows ls) := by
  induction ls with
  | nil => exact fun out => ⟨.ok (), out, [], fun R earlier => by simp; rfl, List.nil_prefix, fun _ => rfl⟩
  | cons line ls ih =>
    refine (settles_turn json line).bind ?_ ?_
    · rintro failure xs ⟨hbegins, -⟩
      exact ⟨hbegins.trans (List.prefix_append [line] ls), nofun⟩
    · rintro ⟨⟩ xs ⟨-, hall⟩
      refine ih.mono ?_
      rintro result ys ⟨hbegins, hrest⟩
      rw [Follows, scanned_append, List.map_append, hall rfl, List.singleton_append, List.cons_prefix_cons]
      exact ⟨⟨rfl, hbegins⟩, fun hok => by rw [hrest hok]⟩

theorem settles_converse (json : Bool) (input : List UInt8) :
    Settles (fun R => Session.converse ⟨json, R.color⟩ input) fun _ es =>
      (scanned es).map bytes <+: lines input := by
  have hgreet : Settles (fun _ => Session.greet) fun _ es => es = [] := by
    refine (settles_say _).bind (fun _ _ h => h) ?_
    rintro ⟨⟩ xs rfl
    refine (settles_say _).bind (fun _ _ h => h) ?_
    rintro ⟨⟩ ys rfl
    exact settles_ask
  refine hgreet.bind ?_ ?_
  · rintro failure xs rfl
    exact List.nil_prefix
  · rintro ⟨⟩ xs rfl
    refine (settles_turns json (lines input)).bind (fun _ _ h => h.1) ?_
    rintro ⟨⟩ ys ⟨hbegins, -⟩
    refine (settles_say "\n").mono ?_
    rintro result zs rfl
    rwa [List.nil_append, List.append_nil]

/-- The outcome of a whole session, whatever the recording. -/
theorem exists_runOn_converse (json : Bool) (input : List UInt8) (out : Sink) :
    ∃ failure left es, (scanned es).map bytes <+: lines input ∧
      ∀ R : Recording, (Session.converse ⟨json, R.color⟩ input).runOn ⟨out, R.holding []⟩ =
        (failure, ⟨left, R.holding (es.flatMap Episode.entries)⟩) := by
  obtain ⟨result, left, es, hunfolds, hbegins⟩ := settles_converse json input out
  refine ⟨match result with
    | .error failure => some failure
    | .ok () => none, left, es, hbegins, ?_⟩
  intro R
  have hrun : Session.converse ⟨json, R.color⟩ input ⟨out, R.holding []⟩ = _ := hunfolds R []
  rw [Session.runOn, hrun, List.nil_append]
  rcases result with failure | ⟨⟩ <;> rfl

end ScriptScan
