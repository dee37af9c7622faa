import FormatStick.MainActivity
import FormatStick.Runs

/-!
# What the format button guards

The button's enabled state is the app's only guard. It keeps sessions apart as
long as nothing enables the button during one, and it stands for an authorised
device as long as no scan meets an unauthorised one while it is, or is being,
enabled, and no grant arrives after its permission is gone. Both conditions are
exact.
-/
namespace FormatStick
open Runs

namespace MainActivity

variable {m : UsbManager} {a : MainActivity} {device : UsbDevice}

@[simp] theorem setupUsbReady_enabled (a : MainActivity) : a.setupUsbReady.btnFormatEnabled = true := rfl

@[simp] theorem setupUsbReady_device (a : MainActivity) : a.setupUsbReady.myUsbDevice = a.myUsbDevice := rfl

@[simp] theorem setupUsbReady_readyFor (a : MainActivity) : a.setupUsbReady.readyFor = a.myUsbDevice := rfl

@[simp] theorem resetUsbState_enabled (a : MainActivity) : a.resetUsbState.btnFormatEnabled = false := rfl

theorem scan_none (h : m.firstMassStorage = none) : a.scanForUsbDevices m = a.resetUsbState := by
  rw [scanForUsbDevices, h]

theorem scan_ready (h : m.firstMassStorage = some device) (hp : m.hasPermission device = true) :
    a.scanForUsbDevices m = setupUsbReady { a with myUsbDevice := some device } := by
  simp only [scanForUsbDevices, h, hp, if_true]

theorem scan_found (h : m.firstMassStorage = some device) (hp : m.hasPermission device = false) :
    a.scanForUsbDevices m =
      { a with myUsbDevice := some device, textStatus := .deviceFound (device.productName.getD "USB") } := by
  simp only [scanForUsbDevices, h, hp, Bool.false_eq_true, if_false]

/-- A scan leaves the button enabled only with a device at hand: one it has permission for, or
any where the button was enabled before. -/
theorem scan_enabled_iff : (a.scanForUsbDevices m).btnFormatEnabled = true ↔
    ∃ d, m.firstMassStorage = some d ∧ (m.hasPermission d = true ∨ a.btnFormatEnabled = true) := by
  cases h : m.firstMassStorage with
  | none => simp [scan_none h]
  | some d =>
    cases hp : m.hasPermission d with
    | true => simp [scan_ready h hp, hp]
    | false => simp [scan_found h hp, hp]

theorem scan_device : (a.scanForUsbDevices m).myUsbDevice = m.firstMassStorage := by
  cases h : m.firstMassStorage with
  | none => rw [scan_none h]; rfl
  | some d =>
    cases hp : m.hasPermission d with
    | true => rw [scan_ready h hp]; rfl
    | false => rw [scan_found h hp]

end MainActivity

namespace App

/-- Some thread is inside `startStableFormat`. -/
def Formatting (s : App) : Prop := ∃ t ∈ s.threads, t.phase = .formatting

/-- A session has been asked for at a click and has not ended. -/
def Outstanding (s : App) : Prop := s.starts ≠ [] ∨ s.threads ≠ []

/-- No session starts while an earlier thread is inside `startStableFormat`. -/
def Exclusive (s : App) (x : UsbManager × Event) : Prop := x.2 = .startCommand → s.starts ≠ [] → ¬s.Formatting

/-- The event finds a device to enable the format button for: an attach or a re-creation an
authorised one, a permission result the device it grants, a format result any. -/
def Arms (s : App) (x : UsbManager × Event) : Prop :=
  match x.2 with
  | .usbAttached | .recreate => ∃ d, x.1.firstMassStorage = some d ∧ x.1.hasPermission d = true
  | .usbPermission device granted => granted = true ∧ device.isSome
  | .formatResult => s.results ≠ [] ∧ x.1.firstMassStorage.isSome
  | _ => False

/-- No event arms the button during a session. -/
def Undisturbed (s : App) (x : UsbManager × Event) : Prop := s.Outstanding → ¬s.Arms x

/-- Such an event enables the button for a device and leaves the sessions alone. -/
theorem Arms.armed {s : App} {x : UsbManager × Event} (h : s.Arms x) :
    (s.step x).activity.btnFormatEnabled = true ∧ (s.step x).activity.myUsbDevice.isSome ∧
      (s.step x).starts = s.starts ∧ (s.step x).threads = s.threads := by
  obtain ⟨m, e⟩ := x
  cases e with
  | usbAttached =>
    obtain ⟨d, hd, hp⟩ := h
    refine ⟨MainActivity.scan_enabled_iff.mpr ⟨d, hd, .inl hp⟩, ?_, rfl, rfl⟩
    exact MainActivity.scan_device ▸ hd ▸ rfl
  | recreate =>
    obtain ⟨d, hd, hp⟩ := h
    refine ⟨MainActivity.scan_enabled_iff.mpr ⟨d, hd, .inl hp⟩, ?_, rfl, rfl⟩
    exact MainActivity.scan_device ▸ hd ▸ rfl
  | usbPermission device granted =>
    obtain ⟨rfl, hd⟩ := h
    obtain ⟨d, rfl⟩ := Option.isSome_iff_exists.mp hd
    exact ⟨rfl, rfl, rfl, rfl⟩
  | formatResult =>
    obtain ⟨hr, hd⟩ := h
    obtain ⟨d, hd⟩ := Option.isSome_iff_exists.mp hd
    obtain ⟨success, rest, hr⟩ := List.exists_cons_of_ne_nil hr
    have hstep : s.step (m, .formatResult) =
        { s with activity := s.activity.onFormatResult m success, results := rest } := by
      simp only [step, onFormatResult, hr]
    rw [hstep]
    refine ⟨MainActivity.scan_enabled_iff.mpr ⟨d, hd, .inr rfl⟩, ?_, rfl, rfl⟩
    exact (MainActivity.scan_device (m := m)).symm ▸ hd ▸ rfl
  | usbDetached _ => exact h.elim
  | click _ _ _ _ => exact h.elim
  | startCommand => exact h.elim
  | openDevice _ _ => exact h.elim
  | formatReturned _ _ => exact h.elim

/-- At most one session, which keeps the button disabled; sessions have a device. -/
structure Single (s : App) : Prop where
  one : s.starts.length + s.threads.length ≤ 1
  disabled : s.Outstanding → s.activity.btnFormatEnabled = false
  device : s.activity.btnFormatEnabled = true → s.activity.myUsbDevice.isSome
  intents : ∀ intent ∈ s.starts, intent.usbDevice.isSome
  threads : ∀ t ∈ s.threads, t.intent.usbDevice.isSome

theorem scan_device_of_enabled {m : UsbManager} {a : MainActivity}
    (h : (a.scanForUsbDevices m).btnFormatEnabled = true) : (a.scanForUsbDevices m).myUsbDevice.isSome := by
  obtain ⟨d, hd, -⟩ := MainActivity.scan_enabled_iff.mp h
  rw [MainActivity.scan_device, hd]
  rfl

theorem single_launch (m : UsbManager) : Single (launch m) where
  one := Nat.zero_le 1
  disabled h := absurd h (by simp [Outstanding, launch])
  device := scan_device_of_enabled
  intents _ h := absurd h List.not_mem_nil
  threads _ h := absurd h List.not_mem_nil

/-- A callback of the activity alone. -/
theorem Single.activity {s : App} (h : Single s) {a : MainActivity} (results : List Bool)
    (hdisabled : s.Outstanding → a.btnFormatEnabled = false)
    (hdevice : a.btnFormatEnabled = true → a.myUsbDevice.isSome) :
    Single { s with activity := a, results := results } :=
  ⟨h.one, hdisabled, hdevice, h.intents, h.threads⟩

/-- Threads that go on or end. -/
theorem Single.threadsLeft {s : App} (h : Single s) {threads : List FormatThread} (results : List Bool)
    (hlen : threads.length ≤ s.threads.length)
    (hsame : ∀ t ∈ threads, ∃ u ∈ s.threads, t.intent = u.intent) :
    Single { s with threads := threads, results := results } where
  one := Nat.le_trans (Nat.add_le_add_left hlen _) h.one
  disabled ho := by
    refine h.disabled (ho.imp_right fun hne hnil => ?_)
    rw [hnil] at hlen
    exact hne (List.length_eq_zero_iff.mp (Nat.le_zero.mp hlen))
  device := h.device
  intents := h.intents
  threads t ht := by
    obtain ⟨u, hu, heq⟩ := hsame t ht
    rw [heq]
    exact h.threads u hu

theorem Single.finish {s : App} (h : Single s) (i : ℕ) (success : Bool) : Single (s.finish i success) :=
  h.threadsLeft _ (List.length_eraseIdx_le _ _) fun t ht => ⟨t, List.mem_of_mem_eraseIdx ht, rfl⟩

theorem Single.step {s : App} {x : UsbManager × Event} (h : Single s) (hx : s.Undisturbed x) :
    Single (s.step x) := by
  obtain ⟨m, e⟩ := x
  have hscan : ∀ a : MainActivity, (s.Outstanding → a.btnFormatEnabled = true → m.firstMassStorage = none) →
      (s.Outstanding → ∀ d, m.firstMassStorage = some d → m.hasPermission d = true → False) →
      s.Outstanding → (a.scanForUsbDevices m).btnFormatEnabled = false := by
    intro a ha hno ho
    by_contra hen
    obtain ⟨d, hd, hp | he⟩ := MainActivity.scan_enabled_iff.mp (Bool.not_eq_false _ ▸ hen)
    · exact hno ho d hd hp
    · rw [ha ho he] at hd
      exact absurd hd (by simp)
  cases e with
  | usbAttached =>
    refine h.activity s.results
      (hscan _ (fun ho he => ?_) fun ho d hd hp => hx ho ⟨d, hd, hp⟩) scan_device_of_enabled
    rw [h.disabled ho] at he
    exact absurd he (by decide)
  | recreate =>
    exact h.activity s.results
      (hscan _ (fun _ he => absurd he (by decide)) fun ho d hd hp => hx ho ⟨d, hd, hp⟩)
      scan_device_of_enabled
  | usbDetached device =>
    simp only [App.step, MainActivity.onUsbDetached]
    split_ifs with hid
    · exact h.activity s.results (fun _ => rfl) fun he => (Bool.false_ne_true he).elim
    · exact h.activity s.results h.disabled h.device
  | usbPermission device granted =>
    cases granted with
    | false => exact h.activity s.results h.disabled h.device
    | true =>
      cases device with
      | none => exact h.activity s.results h.disabled h.device
      | some it => exact h.activity s.results (fun ho => (hx ho ⟨rfl, rfl⟩).elim) fun _ => rfl
  | formatResult =>
    simp only [App.step, onFormatResult]
    cases hr : s.results with
    | nil => exact h
    | cons success rest =>
      have hno : s.Outstanding → m.firstMassStorage = none := fun ho => by
        by_contra hne
        exact hx ho ⟨by rw [hr]; exact List.cons_ne_nil _ _, Option.isSome_iff_ne_none.mpr hne⟩
      refine h.activity rest (hscan _ (fun ho _ => hno ho) fun ho d hd _ => ?_) scan_device_of_enabled
      rw [hno ho] at hd
      exact absurd hd (by simp)
  | click canNotify clusterSize partitionType fsType =>
    simp only [App.step, onClick]
    split_ifs with hen
    · -- an enabled button means that nothing is outstanding
      have hidle : ¬s.Outstanding := fun ho => absurd hen (by rw [h.disabled ho]; decide)
      obtain ⟨hs, ht⟩ : s.starts = [] ∧ s.threads = [] := by simpa [Outstanding] using hidle
      cases canNotify with
      | false =>
        simpa [MainActivity.onClick] using h
      | true =>
        have hdev := h.device hen
        refine ⟨?_, fun _ => rfl, fun he => (Bool.false_ne_true he).elim, ?_, ?_⟩
        · simp [MainActivity.onClick, hs, ht]
        · simpa [MainActivity.onClick, hs] using hdev
        · simp [ht]
    · exact h
  | startCommand =>
    simp only [App.step, onStartCommand]
    cases hs : s.starts with
    | nil => exact h
    | cons intent rest =>
      have hone := h.one
      have hint := h.intents
      rw [hs] at hone hint
      have hout : s.Outstanding := .inl (by rw [hs]; exact List.cons_ne_nil _ _)
      refine ⟨?_, fun _ => h.disabled hout, h.device, fun i hi => hint i (List.mem_cons_of_mem _ hi),
        fun t ht => ?_⟩
      · simp only [List.length_cons, List.length_append, List.length_nil] at hone ⊢
        omega
      · rcases List.mem_append.mp ht with ht | ht
        · exact h.threads t ht
        · rw [List.mem_singleton.mp ht]
          exact hint intent List.mem_cons_self
  | openDevice i connected =>
    simp only [App.step, onOpenDevice]
    split
    · next intent hi =>
      split_ifs
      · refine h.threadsLeft s.results (Nat.le_of_eq (List.length_set ..)) fun t ht => ?_
        rcases List.mem_or_eq_of_mem_set ht with ht | rfl
        · exact ⟨t, ht, rfl⟩
        · exact ⟨_, List.mem_of_getElem? hi, rfl⟩
      · exact h.finish i false
    · exact h
  | formatReturned i success =>
    simp only [App.step, onFormatReturned]
    split
    · exact h.finish i success
    · exact h

/-- A click and the service's next events. -/
def clickThrough (m : UsbManager) : List (UsbManager × Event) :=
  [(m, .click true 4096 1 1), (m, .openDevice 0 true), (m, .startCommand), (m, .openDevice 0 true),
    (m, .startCommand)]

/-- With a session under way and the button enabled, a second session starts inside the first. -/
theorem not_exclusive_of_enabled {s : App} (m : UsbManager) (hen : s.activity.btnFormatEnabled = true)
    (hsession : (∃ intent, intent.usbDevice.isSome ∧ s.starts = [intent] ∧ s.threads = []) ∨
      ∃ t, t.intent.usbDevice.isSome ∧ s.starts = [] ∧ s.threads = [t]) :
    ¬Along step Exclusive s (clickThrough m) := by
  obtain ⟨a, starts, threads, results⟩ := s
  simp only at hen hsession
  obtain ⟨intent, hdev, rfl, rfl⟩ | ⟨⟨intent, phase⟩, hdev, rfl, rfl⟩ := hsession
  · -- the first session has not reached the service yet
    simp [clickThrough, Along, Exclusive, Formatting, step, onClick, onOpenDevice, onStartCommand,
      MainActivity.onClick, hen, hdev]
  · cases phase with
    | opening =>
      simp [clickThrough, Along, Exclusive, Formatting, step, onClick, onOpenDevice, onStartCommand,
        MainActivity.onClick, hen, hdev]
    | formatting =>
      simp [clickThrough, Along, Exclusive, Formatting, step, onClick, onOpenDevice, onStartCommand,
        MainActivity.onClick, hen]

theorem undisturbed_clickThrough (s : App) (m : UsbManager) : Along step Undisturbed s (clickThrough m) :=
  ⟨fun _ h => h, fun _ h => h, fun _ h => h, fun _ h => h, fun _ h => h, trivial⟩

/-- The one session that an outstanding state of a single one has. -/
theorem Single.session {s : App} (h : Single s) (ho : s.Outstanding) :
    (∃ intent, intent.usbDevice.isSome ∧ s.starts = [intent] ∧ s.threads = []) ∨
      ∃ t, t.intent.usbDevice.isSome ∧ s.starts = [] ∧ s.threads = [t] := by
  have hone := h.one
  have hintents := h.intents
  have hthreads := h.threads
  cases hs : s.starts with
  | nil =>
    obtain ⟨t, rest, ht⟩ := List.exists_cons_of_ne_nil (ho.resolve_left fun hne => hne hs)
    rw [hs, ht, List.length_nil, List.length_cons] at hone
    obtain rfl : rest = [] := List.length_eq_zero_iff.mp (by omega)
    exact .inr ⟨t, hthreads t (ht ▸ List.mem_cons_self), rfl, ht⟩
  | cons intent rest =>
    rw [hs, List.length_cons] at hone
    obtain rfl : rest = [] := List.length_eq_zero_iff.mp (by omega)
    exact .inl ⟨intent, hintents intent (hs ▸ List.mem_cons_self), rfl, List.length_eq_zero_iff.mp (by omega)⟩

/-- Sessions stay apart in every run in which nothing arms the button during one, and each event
that does arm it then leads to two sessions at a time, with a click and no further such event. -/
theorem sessions_exclusive (m : UsbManager) (es : List (UsbManager × Event))
    (h : Along step Undisturbed (launch m) es) :
    Along step Exclusive (launch m) es ∧ Throughout step (fun s => s.threads.length ≤ 1) (launch m) es ∧
      ∀ x, ¬Undisturbed ((launch m).run es) x →
        ∃ more, Along step Undisturbed (((launch m).run es).step x) more ∧
        ¬Along step Exclusive (launch m) (es ++ x :: more) := by
  have hsingle : Throughout step Single (launch m) es :=
    h.throughout (fun s x hs hx => hs.step hx) (single_launch m)
  refine ⟨hsingle.along (fun s x hs _ _ hstarts => ?_) h, ?_, fun x hx => ?_⟩
  · -- an intent on its way leaves no room for a thread
    rintro ⟨t, ht, -⟩
    have hone := hs.one
    have := List.length_pos_iff.mpr hstarts
    have := List.length_pos_of_mem ht
    omega
  · exact hsingle.mono fun s hs => by have := hs.one; omega
  · obtain ⟨ho, harms⟩ := Classical.not_imp.mp hx
    have harms := not_not.mp harms
    obtain ⟨hen, -, hstarts, hthreads⟩ := harms.armed
    have hsession := hsingle.last.session ho
    refine ⟨clickThrough x.1, undisturbed_clickThrough _ _, fun hall => ?_⟩
    have hrest := hall.right.2
    exact not_exclusive_of_enabled x.1 hen (by rwa [hstarts, hthreads]) hrest

/-- Sticks with the given ids, of which only 1002 has permission. -/
def sticks (ids : List ℤ) : UsbManager := ⟨ids.map fun i => ⟨i, none, [8]⟩, fun d => d.deviceId = 1002⟩

/-- The authorised stick alone. -/
def oneStick : UsbManager := sticks [1002]

/-- A session from the click to its result. -/
theorem sessions_exclusive_once :
    Along step Exclusive (launch oneStick) [(oneStick, .click true 4096 1 1), (oneStick, .startCommand),
      (oneStick, .openDevice 0 true), (oneStick, .formatReturned 0 true), (oneStick, .formatResult)] := by
  refine And.left (sessions_exclusive oneStick _ ?_)
  refine ⟨?_, ?_, ?_, ?_, ?_, trivial⟩
  · exact fun _ h => h
  · exact fun _ h => h
  · exact fun _ h => h
  · exact fun _ h => h
  · exact fun ho _ => ho.elim (fun h => h rfl) fun h => h rfl

/-- An attach is delivered during a format, and the button is clicked again. -/
theorem sessions_overlap_attached :
    ¬Along step Exclusive (launch oneStick) [(oneStick, .click true 4096 1 1), (oneStick, .startCommand),
      (oneStick, .openDevice 0 true), (oneStick, .usbAttached), (oneStick, .click true 4096 1 1),
      (oneStick, .startCommand)] := by
  rintro ⟨-, -, -, -, -, h, -⟩
  exact h rfl (by decide) ⟨_, List.mem_cons_self, rfl⟩

/-- The app together with the last answers of `UsbManager`. -/
def observe (c : App × UsbManager) (x : UsbManager × Event) : App × UsbManager := (c.1.step x, x.1)

/-- A permission is withdrawn only by a detach of its device. -/
def PermissionsKept (c : App × UsbManager) (x : UsbManager × Event) : Prop :=
  ∀ d, c.2.hasPermission d = true → x.1.hasPermission d = true ∨ x.2 = .usbDetached (some d)

/-- An enabled button stands for the device announced as ready, and that device is authorised. -/
def Armed (c : App × UsbManager) : Prop :=
  c.1.activity.btnFormatEnabled = true →
    ∃ d, c.1.activity.myUsbDevice = some d ∧ c.1.activity.readyFor = some d ∧ c.2.hasPermission d = true

/-- No scan meets an unauthorised device while the button is enabled, be it from before an
attach or by a format result, and no grant arrives for a device whose permission is gone. -/
def Authorised (c : App × UsbManager) (x : UsbManager × Event) : Prop :=
  ((x.2 = .usbAttached ∧ c.1.activity.btnFormatEnabled = true ∨ x.2 = .formatResult ∧ c.1.results ≠ []) →
    ∀ d, x.1.firstMassStorage = some d → x.1.hasPermission d = true) ∧
    ∀ d, x.2 = .usbPermission (some d) true → x.1.hasPermission d = true

/-- A scan by an activity with an enabled button. -/
theorem armed_scan_iff {s : App} {m : UsbManager} {a : MainActivity} (ha : a.btnFormatEnabled = true) :
    Armed ({ s with activity := a.scanForUsbDevices m }, m) ↔
      ∀ d, m.firstMassStorage = some d → m.hasPermission d = true := by
  constructor
  · intro h d hd
    obtain ⟨d', hd', -, hp⟩ := h (MainActivity.scan_enabled_iff.mpr ⟨d, hd, .inr ha⟩)
    rw [MainActivity.scan_device, hd] at hd'
    exact Option.some.inj hd' ▸ hp
  · intro h hen
    obtain ⟨d, hd, -⟩ := MainActivity.scan_enabled_iff.mp hen
    refine ⟨d, ?_, ?_, h d hd⟩
    · exact MainActivity.scan_device.trans hd
    · rw [MainActivity.scan_ready hd (h d hd)]
      rfl

/-- A scan by an activity whose button is disabled arms it for an authorised device only. -/
theorem armed_scan {s : App} {m : UsbManager} {a : MainActivity} (ha : a.btnFormatEnabled = false) :
    Armed ({ s with activity := a.scanForUsbDevices m }, m) := by
  intro hen
  obtain ⟨d, hd, hp | he⟩ := MainActivity.scan_enabled_iff.mp hen
  · refine ⟨d, MainActivity.scan_device.trans hd, ?_, hp⟩
    rw [MainActivity.scan_ready hd hp]
    rfl
  · exact absurd (ha.symm.trans he) (by decide)

/-- An event that leaves the activity alone keeps the button armed. -/
theorem Armed.same {s t : App} {m m' : UsbManager} (h : Armed (s, m)) (ha : t.activity = s.activity)
    (hp : ∀ d, m.hasPermission d = true → m'.hasPermission d = true) : Armed (t, m') := by
  intro hen
  obtain ⟨d, hd, hr, hperm⟩ := h (ha ▸ hen)
  exact ⟨d, ha ▸ hd, ha ▸ hr, hp d hperm⟩

/-- Events that neither scan nor grant meet no device. -/
theorem authorised_other {c : App × UsbManager} {m : UsbManager} {e : Event} (h₁ : e ≠ .usbAttached)
    (h₂ : e ≠ .formatResult) (h₃ : ∀ d, e ≠ .usbPermission (some d) true) : Authorised c (m, e) := by
  refine ⟨?_, fun d he => absurd he (h₃ d)⟩
  rintro (⟨he, -⟩ | ⟨he, -⟩)
  · exact absurd he h₁
  · exact absurd he h₂

/-- Each step keeps the button armed for an authorised device exactly if no scan meets an
unauthorised one and no grant is stale. -/
theorem armed_observe_iff {c : App × UsbManager} {x : UsbManager × Event} (h : Armed c)
    (hx : PermissionsKept c x) :
    Armed (observe c x) ↔ Authorised c x := by
  obtain ⟨s, m⟩ := c
  obtain ⟨m', e⟩ := x
  have hfree : (∀ d, e ≠ .usbDetached d) → ∀ d, m.hasPermission d = true → m'.hasPermission d = true :=
    fun hne d hd => (hx d hd).resolve_right (hne _)
  cases e with
  | usbAttached =>
    cases hen : s.activity.btnFormatEnabled with
    | true =>
      refine (armed_scan_iff hen).trans ⟨fun h => ⟨fun _ => h, by simp⟩, fun h => h.1 (.inl ⟨rfl, hen⟩)⟩
    | false =>
      refine ⟨fun _ => ⟨fun hbad => ?_, by simp⟩, fun _ => armed_scan hen⟩
      rcases hbad with ⟨-, he⟩ | ⟨he, -⟩
      · exact absurd (hen.symm.trans he) (by decide)
      · cases he
  | formatResult =>
    cases hr : s.results with
    | nil =>
      refine ⟨fun _ => ⟨fun hbad => ?_, by simp⟩, fun _ => ?_⟩
      · rcases hbad with ⟨he, -⟩ | ⟨-, hne⟩
        · cases he
        · exact absurd hr hne
      · have hsame : (s.step (m', .formatResult)).activity = s.activity := by
          simp only [step, onFormatResult, hr]
        exact h.same hsame (hfree fun _ => by simp)
    | cons success rest =>
      have hne : s.results ≠ [] := by rw [hr]; exact List.cons_ne_nil _ _
      have hstep : s.step (m', .formatResult) =
          { s with activity := s.activity.onFormatResult m' success, results := rest } := by
        simp only [step, onFormatResult, hr]
      rw [observe, hstep]
      refine (armed_scan_iff (s := { s with results := rest }) rfl).trans
        ⟨fun h => ⟨fun _ => h, by simp⟩, fun h => h.1 (.inr ⟨rfl, hne⟩)⟩
  | recreate =>
    exact ⟨fun _ => authorised_other (by simp) (by simp) (by simp), fun _ => armed_scan (a := {}) rfl⟩
  | usbPermission device granted =>
    cases granted with
    | false =>
      exact ⟨fun _ => authorised_other (by simp) (by simp) (by simp),
        fun _ => h.same rfl (hfree fun _ => by simp)⟩
    | true =>
      cases device with
      | none =>
        exact ⟨fun _ => authorised_other (by simp) (by simp) (by simp),
          fun _ => h.same rfl (hfree fun _ => by simp)⟩
      | some it =>
        -- a grant announces its device, authorised or not
        refine ⟨fun harmed => ⟨by simp, fun d hd => ?_⟩, fun hauth _ => ⟨it, rfl, rfl, hauth.2 it rfl⟩⟩
        obtain ⟨d', hd', -, hp⟩ := harmed rfl
        obtain rfl : it = d' := Option.some.inj hd'
        obtain rfl : it = d := by simpa using hd
        exact hp
  | usbDetached device =>
    refine ⟨fun _ => authorised_other (by simp) (by simp) (by simp), fun _ hen => ?_⟩
    simp only [observe, step, MainActivity.onUsbDetached] at hen ⊢
    split_ifs at hen ⊢ with hid
    · exact (Bool.false_ne_true hen).elim
    · obtain ⟨d, hd, hr, hp⟩ := h hen
      refine ⟨d, hd, hr, (hx d hp).resolve_right fun he => hid ?_⟩
      rw [Event.usbDetached.inj he, hd]
  | click canNotify clusterSize partitionType fsType =>
    refine ⟨fun _ => authorised_other (by simp) (by simp) (by simp), fun _ => ?_⟩
    simp only [observe, step, onClick]
    split_ifs with hen
    · cases canNotify with
      | false => exact h.same rfl (hfree fun _ => by simp)
      | true => exact fun he => (Bool.false_ne_true he).elim
    · exact h.same rfl (hfree fun _ => by simp)
  | startCommand =>
    refine ⟨fun _ => authorised_other (by simp) (by simp) (by simp),
      fun _ => h.same ?_ (hfree fun _ => by simp)⟩
    simp only [step, onStartCommand]
    split <;> rfl
  | openDevice i connected =>
    refine ⟨fun _ => authorised_other (by simp) (by simp) (by simp),
      fun _ => h.same ?_ (hfree fun _ => by simp)⟩
    simp only [step, onOpenDevice]
    split
    · split_ifs <;> rfl
    · rfl
  | formatReturned i success =>
    refine ⟨fun _ => authorised_other (by simp) (by simp) (by simp),
      fun _ => h.same ?_ (hfree fun _ => by simp)⟩
    simp only [step, onFormatReturned]
    split <;> rfl

/-- A click hands over nothing, or the device announced as ready, and that one is authorised. -/
def HandsReady (c : App × UsbManager) (x : UsbManager × Event) : Prop :=
  ∀ canNotify clusterSize partitionType fsType, x.2 = .click canNotify clusterSize partitionType fsType →
    (c.1.step x).starts = c.1.starts ∨
      ∃ d, c.1.activity.readyFor = some d ∧ c.2.hasPermission d = true ∧
        (c.1.step x).starts = c.1.starts ++ [⟨some d, clusterSize, partitionType, fsType⟩]

theorem Armed.handsReady {c : App × UsbManager} (h : Armed c) (x : UsbManager × Event) : HandsReady c x := by
  obtain ⟨m, e⟩ := x
  rintro canNotify clusterSize partitionType fsType rfl
  simp only [step, onClick]
  split_ifs with hen
  · cases canNotify with
    | false => exact .inl (List.append_nil _)
    | true =>
      obtain ⟨d, hd, hr, hp⟩ := h hen
      refine .inr ⟨d, hr, hp, ?_⟩
      simp only [MainActivity.onClick, hd, Bool.true_eq_false, if_false, Option.toList_some]
  · exact .inl rfl

/-- The button is armed for an authorised device throughout exactly the runs in which no scan meets an
unauthorised one while the button is, or is being, enabled, and no grant is stale; their clicks hand over
the announced device. -/
theorem button_armed_iff (m : UsbManager) (es : List (UsbManager × Event))
    (h : Along observe PermissionsKept (launch m, m) es) :
    (Throughout observe Armed (launch m, m) es ↔ Along observe Authorised (launch m, m) es) ∧
      (Along observe Authorised (launch m, m) es → Along observe HandsReady (launch m, m) es) := by
  have hlaunch : Armed (launch m, m) := armed_scan (s := launch m) (a := {}) rfl
  have hiff := throughout_iff (fun c x hc hx => armed_observe_iff hc hx) h hlaunch
  exact ⟨hiff, fun hall => (hiff.mpr hall).along (fun c x hc _ => hc.handsReady x) h⟩

/-- An authorised stick is announced and clicked for. -/
theorem button_armed_iff_click :
    Throughout observe Armed (launch oneStick, oneStick)
      [(oneStick, .usbAttached), (oneStick, .click true 4096 1 1)] := by
  have hperm : ∀ d, oneStick.firstMassStorage = some d → oneStick.hasPermission d = true := by
    intro d hd
    obtain rfl : ⟨1002, none, [8]⟩ = d := Option.some.inj hd
    rfl
  refine ((button_armed_iff oneStick _ ?_).1).mpr ?_
  · exact ⟨fun _ h => .inl h, fun _ h => .inl h, trivial⟩
  · exact ⟨⟨fun _ => hperm, fun _ h => by cases h⟩, ⟨fun _ => hperm, fun _ h => by cases h⟩, trivial⟩

/-- A second stick, without permission, is plugged in and listed first: the button stays enabled
and would format it. -/
theorem button_armed_other :
    let es := [(sticks [1003, 1002], Event.usbAttached)]
    Along observe PermissionsKept (launch oneStick, oneStick) es ∧
      ¬Throughout observe Armed (launch oneStick, oneStick) es := by
  refine ⟨⟨fun _ h => .inl h, trivial⟩, fun h => ?_⟩
  obtain ⟨d, hd, hr, -⟩ := h.last rfl
  obtain rfl : ⟨1003, none, [8]⟩ = d := Option.some.inj hd
  exact absurd hr (by decide)

end App

end FormatStick
