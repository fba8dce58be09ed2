-- SUMMARY: Loading the cryptography in a browser: one load at a time, shared by its callers, tried again after a failure.
import ConfidentialTransfers.Lib.Machine
import ConfidentialTransfers.Sdk.Errors

/-!
# Loading the cryptography

`internal/zk.web.ts`, the browser flavour of the SDK's zk module. Calls and the
ends of loads interleave as the event loop has it. A load is named by how many
were started before it, and a promise by the load it waits for.
-/

open Solana

namespace Sdk

namespace Zk

/-- A call of `initWasm`, and how it ended if it has. -/
structure Load where
  wasmUrl : Option String
  result : Option (Except String Unit) := none
deriving DecidableEq, Repr

/-- The module's variables, and the loads it started. -/
structure Module where
  loading : Option Nat := none
  loaded : Bool := false
  loads : List Load := []
deriving DecidableEq, Repr

/-- `options?.wasmUrl ? { module_or_path: options.wasmUrl } : undefined`. -/
def moduleOrPath (wasmUrl : Option String) : Option String := wasmUrl.filter (· != "")

/-- Start a load unless there is one; the promise is that of the load. -/
def initConfidentialTransfers (wasmUrl : Option String) (m : Module) : Nat × Module :=
  match m.loading with
  | some load => (load, m)
  | none =>
    (m.loads.length,
      { m with
        loading := some m.loads.length
        loads := m.loads ++ [{ wasmUrl := moduleOrPath wasmUrl }] })

/-- What every SDK function awaits first. -/
def ensureZk (m : Module) : Nat × Module := initConfidentialTransfers none m

/-- The reactions to a load that ends. A promise settles once. -/
def settle (load : Nat) (result : Except String Unit) (m : Module) : Module :=
  match m.loads[load]? with
  | some { wasmUrl, result := none } =>
    let loads := m.loads.set load { wasmUrl, result := some result }
    match result with
    | .ok () => { m with loaded := true, loads }
    | .error _ => { m with loading := none, loads }
  | _ => m

def loadError (cause : String) : Thrown :=
  .sdk (.new .cryptoUnavailable
    ("@softseco/confidential-transfers could not load the zk-sdk WebAssembly (index_bg.wasm from " ++
      "@solana/zk-sdk/dist/web). With Vite's dev server, add " ++
      "`optimizeDeps: \x7b exclude: [\"@solana/zk-sdk\"] \x7d` to vite.config, and if the request for the " ++
      ".wasm file is refused (403), add its node_modules folder to `server.fs.allow`. Or serve the " ++
      "file yourself and pass its URL: `initConfidentialTransfers(\x7b wasmUrl \x7d)`. Cause: " ++ cause))

/-- What awaiting a promise gives, once it has settled. -/
def awaited (m : Module) (load : Nat) : Option (Except Thrown Unit) :=
  (m.loads[load]?.bind (·.result)).map (·.mapError loadError)

def assertZkReady (what : String) (m : Module) : Except Thrown Unit :=
  if !m.loaded then
    .error (.sdk (.new .cryptoUnavailable
      (what ++ " needs the zk-sdk WebAssembly, which is not loaded yet. " ++
        "Call `await initConfidentialTransfers()` once before using it in a browser.")))
  else .ok ()

/-- What the event loop runs next: a call, or the reactions to a load. -/
inductive Input
  | call (wasmUrl : Option String)
  | settle (load : Nat) (result : Except String Unit)

def next (m : Module) : Input → Module
  | .call wasmUrl => (initConfidentialTransfers wasmUrl m).2
  | .settle load result => settle load result m

/-- The module after these inputs. -/
def after (inputs : List Input) : Module := Machine.run next {} inputs

/-! ## The three states of the module -/

def Load.failed (l : Load) : Bool :=
  match l.result with
  | some (.error _) => true
  | _ => false

/-- After some failed loads, the module waits for a call, for a load to end, or is ready. -/
inductive Sound : Module → Prop
  | idle (failed : List Load) (h : failed.all Load.failed) :
    Sound { loading := none, loaded := false, loads := failed }
  | running (failed : List Load) (h : failed.all Load.failed) (wasmUrl : Option String) :
    Sound { loading := some failed.length, loaded := false, loads := failed ++ [{ wasmUrl }] }
  | ready (failed : List Load) (h : failed.all Load.failed) (wasmUrl : Option String) :
    Sound { loading := some failed.length, loaded := true,
            loads := failed ++ [{ wasmUrl, result := some (.ok ()) }] }

/-- A load that failed has settled. -/
theorem settle_of_settled {m : Module} {load : Nat} {result : Except String Unit}
    (h : ∀ l, m.loads[load]? = some l → l.result ≠ none) : settle load result m = m := by
  unfold settle
  split
  case h_1 hload => exact absurd rfl (h _ hload)
  case h_2 => rfl

theorem result_ne_none_of_failed {failed : List Load} (h : failed.all Load.failed) {load : Nat} {l : Load}
    (hload : failed[load]? = some l) : l.result ≠ none := by
  have hl : l.failed = true := List.all_eq_true.1 h l (List.mem_of_getElem? hload)
  intro hnone
  simp [Load.failed, hnone] at hl

/-- A load is among the earlier ones, or it is the last. -/
theorem getElem?_concat_cases {loads : List Load} {last l : Load} {load : Nat}
    (h : (loads ++ [last])[load]? = some l) :
    loads[load]? = some l ∨ load = loads.length ∧ last = l := by
  have hle : load < (loads ++ [last]).length := (List.getElem?_eq_some_iff.1 h).1
  rw [List.length_append, List.length_singleton] at hle
  obtain hlt | rfl := Nat.lt_succ_iff_lt_or_eq.1 hle
  · rw [List.getElem?_append_left hlt] at h
    exact .inl h
  · rw [List.getElem?_concat_length, Option.some.injEq] at h
    exact .inr ⟨rfl, h⟩

/-- Among failed loads and one more, only the last can be unsettled. -/
theorem result_ne_none_of_ne {failed : List Load} (h : failed.all Load.failed) {last l : Load} {load : Nat}
    (hne : load ≠ failed.length) (hload : (failed ++ [last])[load]? = some l) : l.result ≠ none := by
  obtain hfailed | ⟨hlast, -⟩ := getElem?_concat_cases hload
  · exact result_ne_none_of_failed h hfailed
  · exact absurd hlast hne

theorem sound_settle {m : Module} (load : Nat) (result : Except String Unit) (h : Sound m) :
    Sound (settle load result m) := by
  cases h with
  | idle failed h =>
    rw [settle_of_settled fun l => result_ne_none_of_failed h]
    exact .idle failed h
  | running failed h url =>
    by_cases hload : load = failed.length
    · subst hload
      cases result with
      | ok =>
        have hready := Sound.ready failed h url
        simpa [settle] using hready
      | error e =>
        have hidle := Sound.idle (failed ++ [{ wasmUrl := url, result := some (.error e) }])
          (by simpa [Load.failed] using h)
        simpa [settle] using hidle
    · rw [settle_of_settled fun l => result_ne_none_of_ne h hload]
      exact .running failed h url
  | ready failed h url =>
    have hsettled : ∀ l, (failed ++ [{ wasmUrl := url, result := some (.ok ()) }])[load]? = some l →
        l.result ≠ none := by
      intro l hl
      by_cases hload : load = failed.length
      · subst hload
        rw [List.getElem?_concat_length, Option.some.injEq] at hl
        subst hl
        exact Option.some_ne_none _
      · exact result_ne_none_of_ne h hload hl
    rw [settle_of_settled hsettled]
    exact .ready failed h url

theorem sound_next (m : Module) (input : Input) (h : Sound m) : Sound (next m input) := by
  cases input with
  | call wasmUrl =>
    cases h with
    | idle failed h => exact .running failed h (moduleOrPath wasmUrl)
    | running failed h url => exact .running failed h url
    | ready failed h url => exact .ready failed h url
  | settle load result => exact sound_settle load result h

theorem sound_after (inputs : List Input) : Sound (after inputs) :=
  Machine.run_invariant sound_next (.idle [] rfl) inputs

/-! ## What later inputs keep -/

/-- Loads keep their URLs, settled loads their outcomes, and a module that is ready starts no load. -/
structure Later (m m' : Module) : Prop where
  loads : ∀ (load : Nat) (l : Load), m.loads[load]? = some l →
    ∃ l' : Load, m'.loads[load]? = some l' ∧ l'.wasmUrl = l.wasmUrl ∧ (l.result ≠ none → l' = l)
  loaded : m.loaded = true → m' = m

instance : IsPreorder Module Later where
  refl := fun _ => ⟨fun _ l h => ⟨l, h, rfl, fun _ => rfl⟩, fun _ => rfl⟩
  trans := by
    intro m m' m'' h h'
    constructor
    · intro load l hl
      obtain ⟨l', hl', hurl, hsettled⟩ := h.loads load l hl
      obtain ⟨l'', hl'', hurl', hsettled'⟩ := h'.loads load l' hl'
      refine ⟨l'', hl'', hurl'.trans hurl, fun hne => ?_⟩
      have heq := hsettled hne
      rw [← heq] at hne
      rw [hsettled' hne, heq]
    · intro hloaded
      obtain rfl := h.loaded hloaded
      exact h'.loaded hloaded

theorem later_call {m : Module} (hm : Sound m) (wasmUrl : Option String) :
    Later m (initConfidentialTransfers wasmUrl m).2 := by
  cases hm with
  | idle failed h =>
    constructor
    · intro load l hl
      exact ⟨l, by rw [← hl]; exact List.getElem?_append_left (List.getElem?_eq_some_iff.1 hl).1, rfl,
        fun _ => rfl⟩
    · exact nofun
  | running failed h url => exact refl _
  | ready failed h url => exact refl _

theorem later_settle {m : Module} (hm : Sound m) (load : Nat) (result : Except String Unit) :
    Later m (settle load result m) := by
  unfold settle
  split
  case h_2 => exact refl m
  case h_1 url hload =>
    -- The load in flight ends; its URL stays, and no other load is touched.
    have hloads : ∀ (i : Nat) (l : Load), m.loads[i]? = some l → ∃ l' : Load,
        (m.loads.set load { wasmUrl := url, result := some result })[i]? = some l' ∧
          l'.wasmUrl = l.wasmUrl ∧ (l.result ≠ none → l' = l) := by
      intro i l hl
      by_cases hi : load = i
      · subst hi
        obtain rfl := Option.some.inj (hload.symm.trans hl)
        refine ⟨{ wasmUrl := url, result := some result }, ?_, rfl, fun hne => absurd rfl hne⟩
        exact List.getElem?_set_self (List.getElem?_eq_some_iff.1 hl).1
      · exact ⟨l, by rwa [List.getElem?_set_ne hi], rfl, fun _ => rfl⟩
    have hloaded : m.loaded = false := by
      cases hm with
      | idle failed h => rfl
      | running failed h url' => rfl
      | ready failed h url' =>
        by_cases hlast : load = failed.length
        · subst hlast
          simp at hload
        · exact absurd rfl (result_ne_none_of_ne h hlast hload)
    cases result with
    | ok => exact ⟨hloads, fun h => by rw [hloaded] at h; cases h⟩
    | error e => exact ⟨hloads, fun h => by rw [hloaded] at h; cases h⟩

theorem later_next (m : Module) (input : Input) (hm : Sound m) : Later m (next m input) := by
  cases input with
  | call wasmUrl => exact later_call hm wasmUrl
  | settle load result => exact later_settle hm load result

theorem later_after (inputs more : List Input) : Later (after inputs) (after (inputs ++ more)) := by
  have h := Machine.run_within sound_next later_next (sound_after inputs) more
  unfold after at h ⊢
  rwa [Machine.run_append]

/-! ## One load at a time -/

/-- A call waits for the load numbered by the failures so far, and starts it unless it is there. -/
theorem initConfidentialTransfers_spec {m : Module} (hm : Sound m) (wasmUrl : Option String) :
    (initConfidentialTransfers wasmUrl m).1 = m.loads.countP Load.failed ∧
      (initConfidentialTransfers wasmUrl m).2.loads.length = m.loads.countP Load.failed + 1 := by
  have hcount : ∀ failed : List Load, failed.all Load.failed → failed.countP Load.failed = failed.length := by
    intro failed h
    exact List.countP_eq_length.2 (List.all_eq_true.1 h)
  cases hm with
  | idle failed h => simp [initConfidentialTransfers, hcount failed h]
  | running failed h url => simp [initConfidentialTransfers, hcount failed h, Load.failed]
  | ready failed h url => simp [initConfidentialTransfers, hcount failed h, Load.failed]

/-- The load a call waits for has the URL it was started with, or that of the call. -/
theorem initConfidentialTransfers_url {m : Module} (hm : Sound m) (wasmUrl : Option String) :
    ∃ l : Load, (initConfidentialTransfers wasmUrl m).2.loads[(initConfidentialTransfers wasmUrl m).1]? = some l ∧
      l.wasmUrl = ((m.loads[(initConfidentialTransfers wasmUrl m).1]?).map (·.wasmUrl)).getD
        (moduleOrPath wasmUrl) := by
  cases hm with
  | idle failed h =>
    exact ⟨{ wasmUrl := moduleOrPath wasmUrl }, by simp [initConfidentialTransfers],
      by simp [initConfidentialTransfers]⟩
  | running failed h url =>
    exact ⟨{ wasmUrl := url }, by simp [initConfidentialTransfers], by simp [initConfidentialTransfers]⟩
  | ready failed h url =>
    exact ⟨{ wasmUrl := url, result := some (.ok ()) }, by simp [initConfidentialTransfers],
      by simp [initConfidentialTransfers]⟩

theorem unsettled_le_one {m : Module} (hm : Sound m) : m.loads.countP (·.result.isNone) ≤ 1 := by
  have hcount : ∀ failed : List Load, failed.all Load.failed →
      failed.countP (·.result.isNone) = 0 := by
    intro failed h
    rw [List.countP_eq_zero]
    intro l hl
    have hfailed := List.all_eq_true.1 h l hl
    cases hresult : l.result with
    | none => simp [Load.failed, hresult] at hfailed
    | some result => simp
  cases hm with
  | idle failed h => simp [hcount failed h]
  | running failed h url => simp [hcount failed h]
  | ready failed h url => simp [hcount failed h]

/-- However calls and the ends of loads interleave: at most one load is in flight; a call waits for the
    load that all calls since the last failure wait for, so that there is one load more than failures;
    and this load keeps the URL it was started with, which is this call's own if it started it. -/
theorem one_load_at_a_time (before later : List Input) (wasmUrl : Option String) :
    (after before).loads.countP (·.result.isNone) ≤ 1 ∧
    (initConfidentialTransfers wasmUrl (after before)).1 = (after before).loads.countP Load.failed ∧
    (initConfidentialTransfers wasmUrl (after before)).2.loads.length =
      (after before).loads.countP Load.failed + 1 ∧
    ∃ l : Load, (after (before ++ .call wasmUrl :: later)).loads[
        (initConfidentialTransfers wasmUrl (after before)).1]? = some l ∧
      l.wasmUrl = (((after before).loads[(initConfidentialTransfers wasmUrl (after before)).1]?).map
        (·.wasmUrl)).getD (moduleOrPath wasmUrl) := by
  have hsound := sound_after before
  obtain ⟨hjoins, hone⟩ := initConfidentialTransfers_spec hsound wasmUrl
  refine ⟨unsettled_le_one hsound, hjoins, hone, ?_⟩
  obtain ⟨l, hl, hurl⟩ := initConfidentialTransfers_url hsound wasmUrl
  have hafter : after (before ++ [.call wasmUrl]) = (initConfidentialTransfers wasmUrl (after before)).2 := by
    unfold after
    rw [Machine.run_append]
    rfl
  have hlater := later_after (before ++ [.call wasmUrl]) later
  rw [List.append_assoc, List.singleton_append, hafter] at hlater
  obtain ⟨l', hl', hurl', -⟩ := hlater.loads _ l hl
  exact ⟨l', hl', hurl'.trans hurl⟩

theorem awaited_eq_some_iff {m : Module} {load : Nat} {result : Except Thrown Unit} :
    awaited m load = some result ↔
      ∃ l : Load, m.loads[load]? = some l ∧ ∃ r, l.result = some r ∧ r.mapError loadError = result := by
  simp only [awaited, Option.map_eq_some_iff, Option.bind_eq_some_iff]
  constructor
  · rintro ⟨r, ⟨l, hl, hr⟩, hresult⟩
    exact ⟨l, hl, r, hr, hresult⟩
  · rintro ⟨l, hl, r, hr, hresult⟩
    exact ⟨r, ⟨l, hl, hr⟩, hresult⟩

/-- A load that succeeded is the last one, and the module is ready. -/
theorem ready_of_ok {m : Module} (hm : Sound m) {load : Nat} {l : Load} (hl : m.loads[load]? = some l)
    (hok : l.result = some (.ok ())) : m.loaded = true ∧ m.loading = some load := by
  have hfailed : ∀ failed : List Load, failed.all Load.failed → failed[load]? ≠ some l := by
    intro failed h hmem
    have hl : l.failed = true := List.all_eq_true.1 h l (List.mem_of_getElem? hmem)
    simp [Load.failed, hok] at hl
  cases hm with
  | idle failed h => exact absurd hl (hfailed failed h)
  | running failed h url =>
    obtain hmem | ⟨-, rfl⟩ := getElem?_concat_cases hl
    · exact absurd hmem (hfailed failed h)
    · cases hok
  | ready failed h url =>
    obtain hmem | ⟨rfl, -⟩ := getElem?_concat_cases hl
    · exact absurd hmem (hfailed failed h)
    · exact ⟨rfl, rfl⟩

/-- A call never waits for a load that failed already. -/
theorem lt_of_failed {m : Module} (hm : Sound m) {load : Nat} {l : Load} (hl : m.loads[load]? = some l)
    {cause : String} (herror : l.result = some (.error cause)) (wasmUrl : Option String) :
    load < (initConfidentialTransfers wasmUrl m).1 := by
  cases hm with
  | idle failed h => exact (List.getElem?_eq_some_iff.1 hl).1
  | running failed h url =>
    obtain hmem | ⟨-, rfl⟩ := getElem?_concat_cases hl
    · exact (List.getElem?_eq_some_iff.1 hmem).1
    · cases herror
  | ready failed h url =>
    obtain hmem | ⟨-, rfl⟩ := getElem?_concat_cases hl
    · exact (List.getElem?_eq_some_iff.1 hmem).1
    · cases herror

/-- Once awaiting a call's promise has given a result, this stays its result in every later state. After
    a success the cryptography is ready and nothing is loaded again; after a failure, whose error says how
    to serve the file, a new call waits for a later load. -/
theorem awaited_is_final {before : List Input} {load : Nat} {result : Except Thrown Unit}
    (h : awaited (after before) load = some result) (later : List Input) (wasmUrl : Option String) :
    awaited (after (before ++ later)) load = some result ∧
    match result with
    | .ok () =>
      (∀ what, assertZkReady what (after (before ++ later)) = .ok ()) ∧
        initConfidentialTransfers wasmUrl (after (before ++ later)) = (load, after before)
    | .error e =>
      (∃ cause, e = loadError cause) ∧
        load < (initConfidentialTransfers wasmUrl (after (before ++ later))).1 := by
  have hlater := later_after before later
  obtain ⟨l, hl, r, hr, hresult⟩ := awaited_eq_some_iff.1 h
  obtain ⟨l', hl', -, hsettled⟩ := hlater.loads load l hl
  obtain rfl := hsettled (by rw [hr]; exact Option.some_ne_none _)
  refine ⟨awaited_eq_some_iff.2 ⟨l', hl', r, hr, hresult⟩, ?_⟩
  cases r with
  | ok =>
    obtain rfl := hresult
    obtain ⟨hloaded, hloading⟩ := ready_of_ok (sound_after before) hl hr
    rw [hlater.loaded hloaded]
    constructor
    · intro what
      simp [assertZkReady, hloaded]
    · simp [initConfidentialTransfers, hloading]
  | error cause =>
    obtain rfl := hresult
    exact ⟨⟨cause, rfl⟩, lt_of_failed (sound_after _) hl' hr wasmUrl⟩

theorem awaited_is_final_example :
    initConfidentialTransfers none
        (after [.call none, .settle 0 (.error "404"), .call none, .settle 1 (.ok ()), .call (some "/zk.wasm")]) =
      (1, after [.call none, .settle 0 (.error "404"), .call none, .settle 1 (.ok ())]) := by
  have h : awaited (after [.call none, .settle 0 (.error "404"), .call none, .settle 1 (.ok ())]) 1 =
      some (.ok ()) := rfl
  exact (awaited_is_final h [.call (some "/zk.wasm")] none).2.2

end Zk

end Sdk
