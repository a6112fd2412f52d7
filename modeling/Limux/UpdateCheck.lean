import Limux.SettingsStore
import Mathlib.Data.List.Chain

/-! When the settings of the user outlive the program, how far apart the update checks are, and
that a version the user skips is not offered again. -/
namespace Limux.SettingsStore

open Settings Machine

variable {F : Type} {current : Text} {d d' : SettingsStore F}

/-- A store, and the times that were recorded while it was watched. -/
structure Watched (F : Type) where
  store : SettingsStore F
  times : List ℕ

def watch (current : Text) (w : Watched F) (e : StoreEvent F) : Option (Watched F) :=
  (step current w.store e).map (fun d => ⟨d,w.times ++ (w.store.recorded e).toList⟩)

variable {w w' : Watched F}

/-! The settings of the user. -/

/-- After these the file and the main thread agree. -/
def Saves : StoreEvent F → Prop
  | .start | .update _ true | .skip true => True
  | _ => False

/-- The same start of the program, and the main thread changes nothing. -/
def Unsaved (_ : Watched F) : StoreEvent F → Prop
  | .start | .exit | .update _ _ | .skip _ => False
  | _ => True

/-- The check has been made. -/
def Made : UpdateCheck → Prop
  | .waiting | .fetching => False
  | .fetched _ | .over => True

/-- Nothing was recorded, or one check was. -/
inductive Since (s : Settings) (w : Watched F) : Prop
  | kept (p : Process) (hp : w.store.process = some p) (hs : p.main = s) (ht : w.times = [])
      (hn : w.store.next = s)
  | lost (p : Process) (hp : w.store.process = some p) (hs : p.main = s) (t : ℕ)
      (ht : w.times = [t]) (hn : w.store.next = recordCheck (timestamp t)) (hm : Made p.check)

theorem kept_of_saves {e : StoreEvent F} (he : Saves e) (hs : step current d e = some d') :
    ∃ p, d'.process = some p ∧ d'.next = p.main := by
  cases e with
  | start =>
    simp only [step] at hs
    split at hs
    · cases hs
      exact ⟨_,rfl,rfl⟩
    · cases hs
  | update s written =>
    cases written with
    | false => cases he
    | true =>
      simp only [step] at hs
      split at hs
      · cases hs
        exact ⟨_,rfl,next_save d s true⟩
      · cases hs
  | skip written =>
    cases written with
    | false => cases he
    | true =>
      simp only [step] at hs
      split at hs
      · cases hs
        exact ⟨_,rfl,next_save d _ true⟩
      · cases hs
  | _ => cases he

theorem since_step {s : Settings} (h : Since s w) {e : StoreEvent F} (hok : Unsaved w e)
    (hw : watch current w e = some w') : Since s w' := by
  obtain ⟨d,hd,rfl⟩ := Option.map_eq_some_iff.mp hw
  cases e with
  | start => cases hok
  | exit => cases hok
  | update s written => cases hok
  | skip written => cases hok
  | clock now =>
    cases hd
    cases h with
    | kept p hp hs ht hn => exact .kept p hp hs (by simp [ht,recorded]) hn
    | lost p hp hs t ht hn hm => exact .lost p hp hs t (by simp [ht,recorded]) hn hm
  | maybeCheck appimage =>
    simp only [step] at hd
    split at hd
    · rename_i main prompt hq
      cases hd
      cases h with
      | kept p hp hs ht hn =>
        obtain rfl := Option.some.inj (hp.symm.trans hq)
        exact .kept _ rfl hs (by simp [ht,recorded]) hn
      | lost p hp hs t ht hn hm =>
        obtain rfl := Option.some.inj (hp.symm.trans hq)
        cases hm
    · cases hd
  | fetched body written =>
    simp only [step] at hd
    split at hd
    · rename_i main prompt hq
      cases h with
      | lost p hp hs t ht hn hm =>
        obtain rfl := Option.some.inj (hp.symm.trans hq)
        cases hm
      | kept p hp hs ht hn =>
        obtain rfl := Option.some.inj (hp.symm.trans hq)
        split at hd
        · rename_i r hr
          cases hd
          cases written with
          | false => exact .kept _ rfl hs (by simp [ht,recorded]) hn
          | true =>
            refine .lost _ rfl hs w.store.clock (by simp [ht,recorded,hr]) ?_ trivial
            exact next_save w.store _ true
        · rename_i hr
          cases hd
          refine .kept _ rfl hs ?_ hn
          cases written <;> simp [ht,recorded,hr]
    · cases hd
  | poll =>
    simp only [step] at hd
    split at hd
    · rename_i main release prompt hq
      cases hd
      cases h with
      | kept p hp hs ht hn =>
        obtain rfl := Option.some.inj (hp.symm.trans hq)
        exact .kept _ rfl hs (by simp [ht,recorded]) hn
      | lost p hp hs t ht hn hm =>
        obtain rfl := Option.some.inj (hp.symm.trans hq)
        exact .lost _ rfl hs t (by simp [ht,recorded]) hn trivial
    · cases hd
  | close =>
    simp only [step] at hd
    split at hd
    · rename_i main check r hq
      cases hd
      cases h with
      | kept p hp hs ht hn =>
        obtain rfl := Option.some.inj (hp.symm.trans hq)
        exact .kept _ rfl hs (by simp [ht,recorded]) hn
      | lost p hp hs t ht hn hm =>
        obtain rfl := Option.some.inj (hp.symm.trans hq)
        exact .lost _ rfl hs t (by simp [ht,recorded]) hn hm
    · cases hd

/-- What the main thread has last saved is what the next start reads, unless a check has been
recorded since: the thread of the check saves the default settings with its time. -/
theorem kept_iff {e : StoreEvent F} (he : Saves e) (hd : step current d e = some d')
    (h : Reach (watch current) Unsaved ⟨d',[]⟩ w) :
    w.store.Kept ↔ ∀ t ∈ w.times, ∀ p, w.store.process = some p →
      p.main = recordCheck (timestamp t) := by
  obtain ⟨p,hp,hn⟩ := kept_of_saves he hd
  have hsince : Since p.main w :=
    h.inv (.kept p hp rfl rfl hn) (fun _ _ _ hs hok hw => since_step hs hok hw)
  cases hsince with
  | kept q hq hs ht hn =>
    have hkept : w.store.Kept := by
      intro q' hq'
      obtain rfl := Option.some.inj (hq.symm.trans hq')
      exact hn.trans hs.symm
    simp [ht,hkept]
  | lost q hq hs t ht hn hm =>
    rw [ht,Kept,hn,List.forall_mem_singleton]
    exact forall₂_congr (fun _ _ => eq_comm)

def release (tagName : String) : Json Unit :=
  .obj [("tag_name",.str tagName.toList),("html_url",.str [])]

def wide : Settings := { Settings.default with sidebar := ⟨some 300,none⟩ }

def whileFetching : SettingsStore Unit := ⟨none,some ⟨Settings.default,.fetching,none⟩,0⟩

theorem kept_iff_wide : ¬ ({ whileFetching.save (recordCheck (timestamp 0)) true with
    process := some ⟨wide,.fetched (some ⟨"v1.2.3".toList,[]⟩),none⟩ }).Kept := by
  have hsaves : Saves (.update wide true : StoreEvent Unit) := trivial
  have hsaved : step "1.2.2".toList whileFetching (.update wide true) = some _ := rfl
  intro hkept
  have hlost := (kept_iff hsaves hsaved
    (.next (.fetched (some (release "v1.2.3")) true) .start trivial rfl)).mp hkept 0
      (List.mem_singleton_self 0) _ rfl
  exact absurd (congrArg (fun s => s.sidebar.width) hlost) (by decide)

/-! The checks. -/

/-- Settings that have the time of the last check as the file has it. -/
def Follows (d : SettingsStore F) (s : Settings) : Prop :=
  s.general.lastUpdateCheck = d.next.general.lastUpdateCheck ∧
    s.updateCheckFrequency ≠ "startup".toList

/-- The clock goes forward, and what the main thread saves follows the file. -/
def Orderly (w : Watched F) : StoreEvent F → Prop
  | .clock now => w.store.clock ≤ now ∧ now < 9223372036854775808
  | .update s _ => w.store.Follows s
  | .skip _ => ∀ p, w.store.process = some p → w.store.Follows p.main
  | _ => True

/-- A check that was recorded at `t` keeps the next one back. -/
structure Ready (t : ℕ) (d : SettingsStore F) (p : Process) : Prop where
  waiting : p.check = .waiting → p.main.general.lastUpdateCheck = some (timestamp t) ∧
    p.main.updateCheckFrequency ≠ "startup".toList
  fetching : p.check = .fetching → t+86400 ≤ d.clock

theorem Ready.of_made {t : ℕ} {p : Process} (h : Made p.check) : Ready t d p := by
  constructor <;>
  · intro hc
    rw [hc] at h
    cases h

structure Spaced (w : Watched F) : Prop where
  clock : w.store.clock < 9223372036854775808
  chain : w.times.IsChain (fun t t' => t+86400 ≤ t')
  past : ∀ t ∈ w.times.getLast?, t ≤ w.store.clock
  file : ∀ t ∈ w.times.getLast?, w.store.next.general.lastUpdateCheck = some (timestamp t) ∧
    w.store.next.updateCheckFrequency ≠ "startup".toList
  ready : ∀ t ∈ w.times.getLast?, ∀ p, w.store.process = some p → Ready t w.store p

theorem toInt_timestamp {t : ℕ} (h : t < 9223372036854775808) : (timestamp t).toInt = t :=
  Int64.toInt_ofNat_of_lt h

/-- Unless every start checks, a check that is due is a day after the last. -/
theorem day_of_checkDue {s : Settings} {t now : ℕ} (hnow : now < 9223372036854775808)
    (ht : t ≤ now) (hlast : s.general.lastUpdateCheck = some (timestamp t))
    (hfreq : s.updateCheckFrequency ≠ "startup".toList)
    (hdue : checkDue s (timestamp now) = true) : t+86400 ≤ now := by
  have hsub : saturatingSub (timestamp now) (timestamp t) = (now : ℤ)-t := by
    rw [saturatingSub,toInt_timestamp hnow,toInt_timestamp (by omega)]
    omega
  have hday : dailySecs = 86400 := rfl
  have hweek : weeklySecs = 604800 := rfl
  simp only [checkDue,hlast,hsub,decide_eq_false hfreq,Bool.false_or,Bool.and_eq_true,
    decide_eq_true_eq] at hdue
  split at hdue <;> omega

theorem Spaced.carry (h : Spaced w) {times : List ℕ} (ht : times = w.times)
    (hle : w.store.clock ≤ d.clock)
    (hlt : d.clock < 9223372036854775808)
    (hfile : d.next = w.store.next ∨ w.store.Follows d.next)
    (hready : ∀ t ∈ w.times.getLast?, ∀ p, d.process = some p → Ready t d p) :
    Spaced ⟨d,times⟩ := by
  subst ht
  refine ⟨hlt,h.chain,fun t ht => (h.past t ht).trans hle,fun t ht => ?_,hready⟩
  obtain hsame | hfollows := hfile
  · exact hsame ▸ h.file t ht
  · exact ⟨hfollows.1.trans (h.file t ht).1,hfollows.2⟩

theorem spaced_step (h : Spaced w) {e : StoreEvent F} (hok : Orderly w e)
    (hw : watch current w e = some w') : Spaced w' := by
  obtain ⟨d,hd,rfl⟩ := Option.map_eq_some_iff.mp hw
  cases e with
  | start =>
    simp only [step] at hd
    split at hd
    · cases hd
      refine h.carry (List.append_nil _) le_rfl h.clock (.inl rfl) (fun t ht p hp => ?_)
      cases hp
      exact ⟨fun _ => h.file t ht,fun hf => by cases hf⟩
    · cases hd
  | exit =>
    simp only [step] at hd
    split at hd
    · cases hd
      exact h.carry (List.append_nil _) le_rfl h.clock (.inl rfl) (fun t ht p hp => by cases hp)
    · cases hd
  | clock now =>
    cases hd
    refine h.carry (List.append_nil _) hok.1 hok.2 (.inl rfl) (fun t ht p hp => ?_)
    have hr := h.ready t ht p hp
    exact ⟨hr.waiting,fun hf => (hr.fetching hf).trans hok.1⟩
  | update s written =>
    simp only [step] at hd
    split at hd
    · rename_i p hp
      cases hd
      refine h.carry (List.append_nil _) (clock_save ..).ge ((clock_save ..).trans_lt h.clock) ?_
        (fun t ht q hq => ?_)
      · rw [next_process,next_save]
        cases written with
        | true => exact .inr hok
        | false => exact .inl rfl
      · cases hq
        exact ⟨fun _ => ⟨hok.1.trans (h.file t ht).1,hok.2⟩,
          fun hf => ((h.ready t ht p hp).fetching hf).trans (clock_save ..).ge⟩
    · cases hd
  | maybeCheck appimage =>
    simp only [step] at hd
    split at hd
    · rename_i main prompt hp
      cases hd
      refine h.carry (List.append_nil _) le_rfl h.clock (.inl rfl) (fun t ht q hq => ?_)
      cases hq
      obtain ⟨hlast,hfreq⟩ := (h.ready t ht _ hp).waiting rfl
      constructor
      · intro hf
        dsimp only at hf
        split at hf <;> cases hf
      · intro hf
        dsimp only at hf
        split at hf
        · rename_i hdue
          exact day_of_checkDue h.clock (h.past t ht) hlast hfreq
            (Bool.and_eq_true_iff.mp hdue).2
        · cases hf
    · cases hd
  | fetched body written =>
    simp only [step] at hd
    split at hd
    · rename_i main prompt hp
      split at hd
      · rename_i r hr
        cases hd
        cases written with
        | false =>
          exact h.carry (List.append_nil _) le_rfl h.clock (.inl rfl) (fun t ht q hq => by
            cases hq
            exact .of_made trivial)
        | true =>
          rw [recorded,hr,Option.map_some,Option.toList_some]
          refine ⟨h.clock,?_,?_,?_,?_⟩
          · refine h.chain.append (List.isChain_singleton _) ?_
            intro t ht t' ht'
            cases ht'
            exact (h.ready t ht _ hp).fetching rfl
          · simp [save]
          · simp only [List.getLast?_append,List.getLast?_singleton,Option.some_or,
              Option.mem_some_iff,forall_eq']
            rw [next_process,next_save,if_pos rfl]
            have hdaily : (recordCheck (timestamp w.store.clock)).updateCheckFrequency =
                "daily".toList := rfl
            exact ⟨rfl,hdaily ▸ by decide⟩
          · intro t _ q hq
            cases hq
            exact .of_made trivial
      · rename_i hr
        cases hd
        have hnone : w.store.recorded (.fetched body written) = none := by
          cases written <;> simp [recorded,hr]
        rw [hnone]
        exact h.carry (List.append_nil _) le_rfl h.clock (.inl rfl) (fun t ht q hq => by
          cases hq
          exact .of_made trivial)
    · cases hd
  | poll =>
    simp only [step] at hd
    split at hd
    · cases hd
      exact h.carry (List.append_nil _) le_rfl h.clock (.inl rfl) (fun t ht q hq => by
        cases hq
        exact .of_made trivial)
    · cases hd
  | close =>
    simp only [step] at hd
    split at hd
    · rename_i main check r hp
      cases hd
      refine h.carry (List.append_nil _) le_rfl h.clock (.inl rfl) (fun t ht q hq => ?_)
      cases hq
      have hr := h.ready t ht _ hp
      exact ⟨hr.waiting,hr.fetching⟩
    · cases hd
  | skip written =>
    simp only [step] at hd
    split at hd
    · rename_i main check r hp
      cases hd
      have hfollows := hok _ hp
      refine h.carry (List.append_nil _) (clock_save ..).ge ((clock_save ..).trans_lt h.clock) ?_
        (fun t ht q hq => ?_)
      · rw [next_process,next_save]
        cases written with
        | true => exact .inr hfollows
        | false => exact .inl rfl
      · cases hq
        exact ⟨fun _ => ⟨hfollows.1.trans (h.file t ht).1,hfollows.2⟩,
          fun hf => ((h.ready t ht _ hp).fetching hf).trans (clock_save ..).ge⟩
    · cases hd

/-- Where the main thread saves nothing that is older than the file, two checks that are
recorded are a day apart, whatever interval the user has chosen. -/
theorem checks_spaced (hclock : d.clock < 9223372036854775808)
    (h : Reach (watch current) Orderly ⟨d,[]⟩ w) :
    w.times.IsChain (fun t t' => t+86400 ≤ t') := by
  have hstart : Spaced (⟨d,[]⟩ : Watched F) :=
    ⟨hclock,.nil,by simp,by simp,by simp⟩
  exact (h.inv hstart (fun _ _ _ hs hok hw => spaced_step hs hok hw)).chain

theorem checks_spaced_twice : ∃ w : Watched Unit, run (watch "1.2.2".toList) anyStep
      ⟨⟨none,none,0⟩,[]⟩ [.start,.maybeCheck true,.fetched (some (release "v1.2.3")) true,.exit,
        .clock 86400,.start,.maybeCheck true,.fetched (some (release "v1.2.3")) true] = some w ∧
    w.times = [0,86400] ∧ w.times.IsChain (fun t t' => t+86400 ≤ t') := by
  have hfirst : Reach (watch "1.2.2".toList) Orderly ⟨(⟨none,none,0⟩ : SettingsStore Unit),[]⟩
      ⟨⟨some (writeSettings (recordCheck (timestamp 0))),none,86400⟩,[0]⟩ :=
    .next (.clock 86400) (.next .exit (.next (.fetched (some (release "v1.2.3")) true)
      (.next (.maybeCheck true) (.next .start .start trivial rfl) trivial rfl) trivial rfl)
        trivial rfl) ⟨by decide,by decide⟩ rfl
  exact ⟨_,rfl,rfl,checks_spaced (by decide)
    (.next (.fetched (some (release "v1.2.3")) true) (.next (.maybeCheck true)
      (.next .start hfirst trivial rfl) trivial rfl) trivial rfl)⟩

/-! The version to skip. -/

/-- The settings window leaves the skipped version alone, the program ends only when the next
start reads what the main thread has, and no other version is skipped. -/
def Keeps (d : SettingsStore F) : StoreEvent F → Prop
  | .update s _ => ∀ p, d.process = some p →
      s.general.skipUpdateVersion = p.main.general.skipUpdateVersion
  | .exit => d.Kept
  | .skip _ => False
  | _ => True

/-- A release that may be offered. -/
def Wanted (current tagName : Text) (r : LatestRelease) : Prop :=
  r.tagName ≠ tagName ∧ ∃ latest own, Version.parse r.tagName = some latest ∧
    Version.parse current = some own ∧ latest.Newer own

/-- The version is skipped, in the process or for the next one. -/
inductive Skips (current tagName : Text) (d : SettingsStore F) : Prop
  | running (p : Process) (hp : d.process = some p)
      (hm : p.main.general.skipUpdateVersion = some tagName)
      (ho : ∀ r ∈ p.prompt, Wanted current tagName r)
  | stopped (hp : d.process = none) (hn : d.next.general.skipUpdateVersion = some tagName)

theorem wanted_of_offers {s : Settings} {tagName : Text} {r : LatestRelease}
    (hs : s.general.skipUpdateVersion = some tagName) (h : offers current s r = true) :
    Wanted current tagName r := by
  unfold offers at h
  split at h
  · rename_i latest own hlatest hown
    obtain ⟨hnewer,hskip⟩ := Bool.and_eq_true_iff.mp h
    refine ⟨?_,latest,own,hlatest,hown,of_decide_eq_true hnewer⟩
    rintro rfl
    exact of_decide_eq_true hskip hs
  · cases h

theorem skips_step {tagName : Text} (h : Skips current tagName d) {e : StoreEvent F}
    (hok : Keeps d e) (hs : step current d e = some d') : Skips current tagName d' := by
  cases h with
  | stopped hp hn =>
    cases e with
    | start =>
      simp only [step,hp] at hs
      cases hs
      exact .running _ rfl hn (by simp)
    | clock now =>
      cases hs
      exact .stopped hp hn
    | _ => simp [step,hp] at hs
  | running p hp hm ho =>
    cases e with
    | start => simp [step,hp] at hs
    | exit =>
      simp only [step,hp] at hs
      cases hs
      exact .stopped rfl ((congrArg (fun s => s.general.skipUpdateVersion) (hok p hp)).trans hm)
    | clock now =>
      cases hs
      exact .running p hp hm ho
    | update s written =>
      simp only [step,hp] at hs
      cases hs
      exact .running _ rfl ((hok p hp).trans hm) ho
    | maybeCheck appimage =>
      simp only [step] at hs
      split at hs
      · rename_i main prompt hq
        obtain rfl := Option.some.inj (hp.symm.trans hq)
        cases hs
        exact .running _ rfl hm ho
      · cases hs
    | fetched body written =>
      simp only [step] at hs
      split at hs
      · rename_i main prompt hq
        obtain rfl := Option.some.inj (hp.symm.trans hq)
        split at hs
        · cases hs
          exact .running _ rfl hm ho
        · cases hs
          exact .running _ rfl hm ho
      · cases hs
    | poll =>
      simp only [step] at hs
      split at hs
      · rename_i main release prompt hq
        obtain rfl := Option.some.inj (hp.symm.trans hq)
        cases hs
        refine .running _ rfl hm (fun r hr => ?_)
        exact wanted_of_offers hm (Option.filter_eq_some_iff.mp hr).2
      · cases hs
    | close =>
      simp only [step] at hs
      split at hs
      · rename_i main check r hq
        obtain rfl := Option.some.inj (hp.symm.trans hq)
        cases hs
        exact .running _ rfl hm (by simp)
      · cases hs
    | skip written => cases hok

/-- A version that was skipped is not offered again, and neither is one that is not newer than
the program: not in the same process, and not after any number of starts. -/
theorem skipped_quiet {p q : Process} {r s : LatestRelease} {written : Bool}
    (hp : d.process = some p) (hr : p.prompt = some r)
    (hs : step current d (.skip written) = some d') {d'' : SettingsStore F}
    (h : Reach (step current) Keeps d' d'') (hq : d''.process = some q)
    (ho : q.prompt = some s) : Wanted current r.tagName s := by
  have hskips : Skips current r.tagName d' := by
    obtain ⟨main,check,prompt⟩ := p
    cases hr
    simp only [step,hp] at hs
    cases hs
    exact .running _ rfl rfl (by simp)
  cases h.inv hskips (fun _ _ _ hd hok hs => skips_step hd hok hs) with
  | running q' hq' _ hw =>
    obtain rfl := Option.some.inj (hq'.symm.trans hq)
    exact hw s ho
  | stopped hn => cases hn.symm.trans hq

def whileOffered : SettingsStore Unit :=
  ⟨none,some ⟨Settings.default,.over,some ⟨"v1.2.3".toList,[]⟩⟩,0⟩

theorem skipped_quiet_newer : Wanted "1.2.2".toList "v1.2.3".toList ⟨"v1.3.0".toList,[]⟩ := by
  have hskip : step "1.2.2".toList whileOffered (.skip true) = some _ := rfl
  refine skipped_quiet rfl rfl hskip (.next .poll (.next (.fetched (some (release "v1.3.0")) true)
    (.next (.maybeCheck true) (.next .start (.next .exit .start ?_ rfl) trivial rfl) trivial rfl)
      trivial rfl) trivial rfl) rfl rfl
  intro p hp
  cases hp
  exact load_writeSettings _

end Limux.SettingsStore
