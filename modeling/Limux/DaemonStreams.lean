import Limux.DaemonSteps

/-! The table of the daemon's streams, their pumps, and who closes their connections. -/
namespace Limux

open Machine

namespace Daemon

variable {F : Type} {trunc : F → Option ℤ} {s s' : Daemon F}

theorem streamID_inj {m n : ℕ} (h : streamID m = streamID n) : m = n := by
  have ht := List.append_cancel_left h
  simpa [Text.digits_ofNat] using congrArg Text.digits ht

/-- Streams are numbered as they come, each one with a connection of its own. A stream
that was removed does not come back. -/
structure Table (s : Daemon F) : Prop where
  next : s.nextStreamID = s.opened.length+1
  ids : ∀ (i : ℕ) (x : Json F × Text), s.opened[i]? = some x → x.2 = streamID (i+1)
  conns : ∀ stream state, s.streams.lookup stream = some state →
    ∃ id, s.opened[state.conn]? = some (id,stream)
  gone : ∀ r ∈ s.removed, (∃ id, s.opened[r.2.2]? = some (id,r.2.1)) ∧
    s.streams.lookup r.2.1 = none
  once : (s.removed.map (fun r => r.2.1)).Nodup

namespace Table

theorem conn_eq (h : Table s) {i j : ℕ} {x y : Json F × Text} (hi : s.opened[i]? = some x)
    (hj : s.opened[j]? = some y) (hxy : x.2 = y.2) : i = j := by
  rw [h.ids i x hi,h.ids j y hj] at hxy
  exact Nat.succ.inj (streamID_inj hxy)

theorem opened_nodup (h : Table s) : (s.opened.map Prod.snd).Nodup := by
  rw [List.nodup_iff_injective_getElem]
  intro i j hij
  simp only [List.getElem_map] at hij
  have hi : i.1 < s.opened.length := by simpa using i.2
  have hj : j.1 < s.opened.length := by simpa using j.2
  exact Fin.ext (h.conn_eq (List.getElem?_eq_getElem hi) (List.getElem?_eq_getElem hj) hij)

theorem fresh (h : Table s) {i : ℕ} {id : Json F} :
    s.opened[i]? ≠ some (id,streamID s.nextStreamID) := by
  intro hi
  have heq := streamID_inj (h.ids i _ hi)
  have hlt := (List.getElem?_eq_some_iff.mp hi).1
  rw [h.next] at heq
  omega

theorem removed_unique (h : Table s) {r t : Party × Text × ConnIx} (hr : r ∈ s.removed)
    (ht : t ∈ s.removed) (hc : r.2.2 = t.2.2) : r = t := by
  obtain ⟨i,hi⟩ := (h.gone r hr).1
  obtain ⟨j,hj⟩ := (h.gone t ht).1
  have hst : r.2.1 = t.2.1 := by
    rw [hc,hj] at hi
    exact (congrArg Prod.snd (Option.some.inj hi)).symm
  exact List.inj_on_of_nodup_map h.once hr ht hst

theorem remove (h : Table s) {stream : Text} {state : StreamState} (p : Party)
    (hs : s.streams.lookup stream = some state)
    (ho : s'.opened = s.opened) (hn : s'.nextStreamID = s.nextStreamID)
    (hst : s'.streams = s.streams.erase stream)
    (hr : s'.removed = s.removed ++ [(p,stream,state.conn)]) : Table s' := by
  refine ⟨by rw [hn,ho,h.next],by rw [ho]; exact h.ids,?_,?_,?_⟩
  · intro stream' state' hl
    rw [hst,HashMap.lookup_erase_ite] at hl
    rw [ho]
    split at hl
    · cases hl
    · exact h.conns _ _ hl
  · intro r hmem
    rw [hr,List.mem_append,List.mem_singleton] at hmem
    rw [ho,hst,HashMap.lookup_erase_ite]
    rcases hmem with hmem | rfl
    · refine ⟨(h.gone r hmem).1,?_⟩
      rw [(h.gone r hmem).2]
      split <;> rfl
    · exact ⟨h.conns _ _ hs,if_pos rfl⟩
  · rw [hr,List.map_append,List.nodup_append]
    refine ⟨h.once,List.nodup_singleton _,?_⟩
    intro a ha b hb
    obtain ⟨r,hmem,rfl⟩ := List.mem_map.mp ha
    rintro rfl
    have hst' : r.2.1 = stream := by simpa using hb
    have hno := (h.gone r hmem).2
    rw [hst',hs] at hno
    cases hno

theorem removeAll (h : Table s) : Table s.closeAll := by
  have hmem : ∀ e ∈ s.streams.entries, s.streams.lookup e.1 = some e.2 := fun e he =>
    AList.mem_lookup_iff.mpr he
  have hkeys : (s.streams.entries.map (fun e => (Party.requestLoop,e.1,e.2.conn))).map
      (fun r => r.2.1) = s.streams.keys := by
    simp [AList.keys,List.keys]
  refine ⟨h.next,h.ids,?_,?_,?_⟩
  · intro stream state hl
    simp [closeAll] at hl
  · intro r hr
    refine ⟨?_,AList.lookup_empty _⟩
    rcases List.mem_append.mp hr with hr | hr
    · exact (h.gone r hr).1
    · obtain ⟨e,he,rfl⟩ := List.mem_map.mp hr
      exact h.conns _ _ (hmem e he)
  · simp only [closeAll,List.map_append]
    rw [List.nodup_append,hkeys]
    refine ⟨h.once,s.streams.keys_nodup,?_⟩
    intro a ha b hb
    obtain ⟨r,hr,rfl⟩ := List.mem_map.mp ha
    rintro rfl
    obtain ⟨state,hs⟩ := HashMap.mem_iff_lookup.mp (AList.mem_keys.mpr hb)
    rw [(h.gone r hr).2] at hs
    cases hs

theorem effect (h : Table s) {i : Option ℕ} (he : Effect s i s') : Table s' := by
  cases he with
  | moved | asked | closed | spawned | responded | closedNext | ended | broke | pumped | emitted
  | closedPump => exact ⟨h.next,h.ids,h.conns,h.gone,h.once⟩
  | @opened id hl =>
    refine ⟨by simp [addStream,h.next],?_,?_,?_,h.once⟩
    · intro i x hi
      rcases getElem?_append_one hi with hi | ⟨rfl,rfl⟩
      · exact h.ids i x hi
      · rw [← h.next]
    · intro stream state hs
      simp only [addStream,HashMap.lookup_insert_ite] at hs
      split at hs
      · rename_i heq
        cases hs
        exact ⟨id,by simp [addStream,answer,goto,heq]⟩
      · obtain ⟨i,hi⟩ := h.conns _ _ hs
        exact ⟨i,List.getElem?_append_left (List.getElem?_eq_some_iff.mp hi).1 ▸ hi⟩
    · intro r hr
      obtain ⟨⟨i,hi⟩,hg⟩ := h.gone r hr
      refine ⟨⟨i,List.getElem?_append_left (List.getElem?_eq_some_iff.mp hi).1 ▸ hi⟩,?_⟩
      simp only [addStream,HashMap.lookup_insert_ite]
      rw [if_neg,hg]
      intro heq
      exact h.fresh (heq ▸ hi)
  | removed hq hs => exact h.remove .requestLoop hs rfl rfl rfl rfl
  | @dropped k p state hp hd hs => exact h.remove (.pump k) hs rfl rfl rfl rfl
  | @marked stream state resp hq hs hr hw =>
    refine ⟨h.next,h.ids,?_,?_,h.once⟩
    · intro stream' state' hl
      simp only [HashMap.lookup_insert_ite] at hl
      split at hl
      · rename_i heq
        cases hl
        obtain ⟨i,hi⟩ := h.conns _ _ hs
        exact ⟨i,heq ▸ hi⟩
      · exact h.conns _ _ hl
    · intro r hmem
      refine ⟨(h.gone r hmem).1,?_⟩
      simp only [HashMap.lookup_insert_ite]
      rw [if_neg,(h.gone r hmem).2]
      intro heq
      have hno := (h.gone r hmem).2
      rw [heq,hs] at hno
      cases hno
  | closedAll hl => exact h.removeAll

theorem init : Table (Daemon.init : Daemon F) :=
  ⟨rfl,by simp [Daemon.init],by simp [Daemon.init],by simp [Daemon.init],List.nodup_nil⟩

end Table

def pumped (s : Daemon F) : List Text := s.pumps.map Pump.stream

theorem map_stream_modify (l : List Pump) (k : ℕ) (f : Pump → Pump)
    (hf : ∀ p, (f p).stream = p.stream) : (l.modify k f).map Pump.stream = l.map Pump.stream := by
  apply List.ext_getElem?
  intro i
  rw [List.getElem?_map,List.getElem?_map,List.getElem?_modify]
  cases l[i]? with
  | none => rfl
  | some p =>
    simp only [Option.map_some]
    split <;> simp [hf]

theorem pumped_modify {k : ℕ} {f : Pump → Pump} (hl : s'.pumps = s.pumps.modify k f)
    (hf : ∀ p, (f p).stream = p.stream) : s'.pumped = s.pumped := by
  rw [pumped,hl,map_stream_modify _ _ _ hf]
  rfl

/-- A stream has at most one pump: there is none before it is marked. -/
structure Pumps (s : Daemon F) : Prop where
  known : ∀ stream ∈ s.pumped, ∃ (i : ℕ) (id : Json F), s.opened[i]? = some (id,stream)
  once : s.pumped.Nodup
  unmarked : ∀ stream state, s.streams.lookup stream = some state →
    state.readerStarted = false → stream ∉ s.pumped
  spawning : ∀ stream conn resp, s.loop = .spawning stream conn resp →
    (∃ id, s.opened[conn]? = some (id,stream)) ∧ stream ∉ s.pumped ∧
      ∀ state, s.streams.lookup stream = some state → state.readerStarted = true

namespace Pumps

theorem init : Pumps (Daemon.init : Daemon F) :=
  ⟨by simp [Daemon.init,pumped],List.nodup_nil,by simp [Daemon.init],by simp [Daemon.init]⟩

/-- Streams may go; entries that stay are as they were. -/
theorem of_le (h : Pumps s) (ho : s'.opened = s.opened) (hp : s'.pumped = s.pumped)
    (hs : ∀ stream state, s'.streams.lookup stream = some state →
      s.streams.lookup stream = some state)
    (hl : ∀ stream conn resp, s'.loop = .spawning stream conn resp →
      s.loop = .spawning stream conn resp) : Pumps s' := by
  refine ⟨by rw [hp,ho]; exact h.known,by rw [hp]; exact h.once,?_,?_⟩
  · intro stream state hst
    rw [hp]
    exact h.unmarked stream state (hs _ _ hst)
  · intro stream conn resp hloop
    obtain ⟨h₁,h₂,h₃⟩ := h.spawning _ _ _ (hl _ _ _ hloop)
    rw [ho,hp]
    exact ⟨h₁,h₂,fun state hst => h₃ state (hs _ _ hst)⟩

theorem not_spawning {l : Loop F} (hq : l.quiet) {stream : Text} {conn : ConnIx}
    {resp : RpcResponse F} : l ≠ .spawning stream conn resp := by
  rintro rfl
  cases hq

theorem effect (h : Pumps s) (ht : Table s) {i : Option ℕ} (he : Effect s i s') : Pumps s' := by
  cases he with
  | moved hq hl hw => exact h.of_le rfl rfl (fun _ _ h => h) (fun _ _ _ h => (not_spawning hl h).elim)
  | asked | closed | responded | closedNext | ended =>
    exact h.of_le rfl rfl (fun _ _ h => h) (fun _ _ _ h => by cases h)
  | broke => exact h.of_le rfl rfl (fun _ _ h => h) (fun _ _ _ h => h)
  | pumped | emitted | closedPump =>
    exact h.of_le rfl (map_stream_modify _ _ _ (fun _ => rfl)) (fun _ _ h => h) (fun _ _ _ h => h)
  | removed hq hs =>
    refine h.of_le rfl rfl (fun stream' state' hl => ?_) (fun _ _ _ h => by cases h)
    simp only [HashMap.lookup_erase_ite] at hl
    split at hl
    · cases hl
    · exact hl
  | dropped hp hd hs =>
    refine h.of_le rfl (map_stream_modify _ _ _ (fun _ => rfl)) (fun stream' state' hl => ?_)
      (fun _ _ _ h => h)
    simp only [HashMap.lookup_erase_ite] at hl
    split at hl
    · cases hl
    · exact hl
  | closedAll hl =>
    exact h.of_le rfl rfl (fun _ _ h => by simp [closeAll] at h) (fun _ _ _ h => by cases h)
  | @opened id hl =>
    refine ⟨fun stream hm => ?_,h.once,fun stream state hst hr hm => ?_,fun _ _ _ h => by cases h⟩
    · obtain ⟨i,id',hi⟩ := h.known stream hm
      exact ⟨i,id',List.getElem?_append_left (List.getElem?_eq_some_iff.mp hi).1 ▸ hi⟩
    · simp only [addStream,HashMap.lookup_insert_ite] at hst
      split at hst
      · rename_i heq
        obtain ⟨i,id',hi⟩ := h.known stream hm
        exact ht.fresh (heq ▸ hi)
      · exact h.unmarked stream state hst hr hm
  | @marked stream state resp hq hs hr hw =>
    have hno : stream ∉ s.pumped := h.unmarked stream state hs hr
    refine ⟨h.known,h.once,fun stream' state' hst hr' => ?_,fun stream' conn' resp' hl => ?_⟩
    · simp only [HashMap.lookup_insert_ite] at hst
      split at hst
      · cases hst
        cases hr'
      · exact h.unmarked stream' state' hst hr'
    · cases hl
      refine ⟨ht.conns _ _ hs,hno,fun state' hst => ?_⟩
      simp only [HashMap.lookup_insert_ite,if_true] at hst
      cases hst
      rfl
  | @spawned stream conn resp hl =>
    obtain ⟨⟨id,ho⟩,hno,hmark⟩ := h.spawning _ _ _ hl
    have hp : ∀ stream', stream' ∈ (s.pumps ++ [(⟨stream,conn,.reading,[]⟩ : Pump)]).map Pump.stream →
        stream' ∈ s.pumped ∨ stream' = stream := by
      intro stream' hm
      simpa [pumped] using hm
    refine ⟨fun stream' hm => ?_,?_,fun stream' state hst hr hm => ?_,fun _ _ _ h => by cases h⟩
    · rcases hp stream' hm with hm | rfl
      · exact h.known stream' hm
      · exact ⟨conn,id,ho⟩
    · simp only [Daemon.pumped,List.map_append,List.map_cons,List.map_nil]
      rw [List.nodup_append]
      refine ⟨h.once,List.nodup_singleton _,fun a ha b hb => ?_⟩
      rw [List.mem_singleton] at hb
      rintro rfl
      exact hno (hb ▸ ha)
    · rcases hp stream' hm with hm | rfl
      · exact h.unmarked stream' state hst hr hm
      · rw [hmark state hst] at hr
        cases hr

end Pumps

def Loop.owes : Loop F → List ConnIx
  | .closing c _ => [c]
  | .closingAll cs => cs
  | _ => []

theorem owes_of_quiet {l : Loop F} (h : l.quiet) : l.owes = [] := by
  cases l with
  | closing | spawning | closingAll => cases h
  | _ => rfl

/-- A party that is about to close a connection. -/
def Owes (s : Daemon F) : Party → ConnIx → Prop
  | .requestLoop, c => c ∈ s.loop.owes
  | .pump k, c => ∃ p, s.pumps[k]? = some p ∧ p.phase.closes = some c

/-- A connection is closed once, by the party that removed its stream. -/
structure Closing (s : Daemon F) : Prop where
  remover : ∀ p c, (p,c) ∈ s.closes → ∃ stream, (p,stream,c) ∈ s.removed
  owed : ∀ p c, s.Owes p c → (∃ stream, (p,stream,c) ∈ s.removed) ∧ ∀ q, (q,c) ∉ s.closes
  closed : ∀ p stream c, (p,stream,c) ∈ s.removed → (p,c) ∈ s.closes ∨ s.Owes p c
  once : (s.closes.map Prod.snd).Nodup
  all : s.loop.owes.Nodup

namespace Closing

theorem init : Closing (Daemon.init : Daemon F) := by
  refine ⟨by simp [Daemon.init],fun p c h => ?_,by simp [Daemon.init],List.nodup_nil,List.nodup_nil⟩
  cases p with
  | requestLoop => cases h
  | pump k =>
    obtain ⟨p,hp,-⟩ := h
    cases hp

theorem of_same (h : Closing s) (hr : s'.removed = s.removed) (hc : s'.closes = s.closes)
    (ho : ∀ p c, s'.Owes p c ↔ s.Owes p c) (hn : s'.loop.owes.Nodup) : Closing s' := by
  refine ⟨by rw [hr,hc]; exact h.remover,fun p c hp => ?_,fun p stream c hp => ?_,?_,hn⟩
  · rw [hr,hc]
    exact h.owed p c ((ho p c).mp hp)
  · rw [hc,ho]
    exact h.closed p stream c (hr ▸ hp)
  · rw [hc]
    exact h.once

/-- No close of a connection whose stream is in the table. -/
theorem open_of_lookup (h : Closing s) (ht : Table s) {stream : Text} {state : StreamState}
    (hs : s.streams.lookup stream = some state) (q : Party) : (q,state.conn) ∉ s.closes := by
  intro hm
  obtain ⟨stream',hr⟩ := h.remover _ _ hm
  obtain ⟨⟨i,hi⟩,hg⟩ := ht.gone _ hr
  obtain ⟨j,hj⟩ := ht.conns _ _ hs
  have heq : stream' = stream := by
    simp only at hi
    rw [hj] at hi
    exact (congrArg Prod.snd (Option.some.inj hi)).symm
  rw [heq] at hg
  exact Option.some_ne_none _ (hs.symm.trans hg)

theorem remove (h : Closing s) (ht : Table s) {stream : Text} {state : StreamState} {p : Party}
    (hs : s.streams.lookup stream = some state)
    (hr : s'.removed = s.removed ++ [(p,stream,state.conn)]) (hc : s'.closes = s.closes)
    (ho : ∀ q c, s'.Owes q c ↔ s.Owes q c ∨ q = p ∧ c = state.conn)
    (hn : s'.loop.owes.Nodup) : Closing s' := by
  refine ⟨fun q c hq => ?_,fun q c hq => ?_,fun q stream' c hq => ?_,by rw [hc]; exact h.once,hn⟩
  · obtain ⟨stream',hm⟩ := h.remover q c (hc ▸ hq)
    exact ⟨stream',hr ▸ List.mem_append_left _ hm⟩
  · rw [hr,hc]
    rcases (ho q c).mp hq with hq | ⟨rfl,rfl⟩
    · obtain ⟨⟨stream',hm⟩,hno⟩ := h.owed q c hq
      exact ⟨⟨stream',List.mem_append_left _ hm⟩,hno⟩
    · exact ⟨⟨stream,by simp⟩,h.open_of_lookup ht hs⟩
  · rw [hc,ho]
    rw [hr,List.mem_append,List.mem_singleton] at hq
    rcases hq with hq | hq
    · exact (h.closed q stream' c hq).imp_right .inl
    · cases hq
      exact .inr (.inr ⟨rfl,rfl⟩)

theorem close (h : Closing s) (ht : Table s) {p : Party} {c : ConnIx} (hp : s.Owes p c)
    (hr : s'.removed = s.removed) (hc : s'.closes = s.closes ++ [(p,c)])
    (ho : ∀ q d, s'.Owes q d ↔ s.Owes q d ∧ ¬ (q = p ∧ d = c)) (hn : s'.loop.owes.Nodup) :
    Closing s' := by
  obtain ⟨⟨stream,hm⟩,hno⟩ := h.owed p c hp
  refine ⟨fun q d hq => ?_,fun q d hq => ?_,fun q stream' d hq => ?_,?_,hn⟩
  · rw [hr]
    rw [hc,List.mem_append,List.mem_singleton] at hq
    rcases hq with hq | hq
    · exact h.remover q d hq
    · cases hq
      exact ⟨stream,hm⟩
  · obtain ⟨hq,hne⟩ := (ho q d).mp hq
    obtain ⟨⟨stream',hm'⟩,hno'⟩ := h.owed q d hq
    rw [hr,hc]
    refine ⟨⟨stream',hm'⟩,fun q' hq' => ?_⟩
    rw [List.mem_append,List.mem_singleton] at hq'
    rcases hq' with hq' | hq'
    · exact hno' q' hq'
    · cases hq'
      exact hne ⟨congrArg Prod.fst (ht.removed_unique hm' hm rfl),rfl⟩
  · rw [hc,ho,List.mem_append,List.mem_singleton,Prod.mk.injEq]
    rcases h.closed q stream' d (hr ▸ hq) with hq | hq
    · exact .inl (.inl hq)
    · by_cases he : q = p ∧ d = c
      · exact .inl (.inr he)
      · exact .inr ⟨hq,he⟩
  · rw [hc,List.map_append,List.nodup_append]
    refine ⟨h.once,List.nodup_singleton _,fun a ha b hb => ?_⟩
    obtain ⟨x,hx,rfl⟩ := List.mem_map.mp ha
    rw [List.map_singleton,List.mem_singleton] at hb
    intro heq
    have hx' : x = (x.1,c) := Prod.ext rfl (heq.trans hb)
    exact hno x.1 (hx' ▸ hx)

theorem removeAll (h : Closing s) (ht : Table s) (hl : s.loop = .returning) :
    Closing s.closeAll := by
  have hconns : (s.streams.entries.map (fun e => (Party.requestLoop,e.1,e.2.conn))).map
      (fun e => e.2.2) = s.streams.entries.map (fun e => e.2.conn) := by
    rw [List.map_map]
    rfl
  have hmem : ∀ c, c ∈ s.closeAll.loop.owes ↔ ∃ e ∈ s.streams.entries, e.2.conn = c := by
    intro c
    simp only [closeAll,goto,Loop.owes,hconns,List.mem_map]
  refine ⟨fun q c hq => ?_,fun q c hq => ?_,fun q stream c hq => ?_,h.once,?_⟩
  · obtain ⟨stream,hm⟩ := h.remover q c hq
    exact ⟨stream,List.mem_append_left _ hm⟩
  · cases q with
    | requestLoop =>
      obtain ⟨e,he,rfl⟩ := (hmem c).mp hq
      exact ⟨⟨e.1,List.mem_append_right _ (List.mem_map.mpr ⟨e,he,rfl⟩)⟩,
        h.open_of_lookup ht (AList.mem_lookup_iff.mpr he)⟩
    | pump k =>
      obtain ⟨⟨stream,hm⟩,hno⟩ := h.owed (.pump k) c hq
      exact ⟨⟨stream,List.mem_append_left _ hm⟩,hno⟩
  · rcases List.mem_append.mp hq with hq | hq
    · rcases h.closed q stream c hq with hq | hq
      · exact .inl hq
      · cases q with
        | requestLoop =>
          simp only [Owes,hl] at hq
          cases hq
        | pump k => exact .inr hq
    · obtain ⟨e,he,heq⟩ := List.mem_map.mp hq
      cases heq
      exact .inr ((hmem _).mpr ⟨e,he,rfl⟩)
  · simp only [closeAll,goto,Loop.owes,hconns]
    refine List.Nodup.map_on ?_ (List.NodupKeys.nodup s.streams.nodupKeys)
    intro e he e' he' hc
    have hs := AList.mem_lookup_iff.mpr he
    have hs' := AList.mem_lookup_iff.mpr he'
    obtain ⟨i,hi⟩ := ht.conns _ _ hs
    obtain ⟨j,hj⟩ := ht.conns _ _ hs'
    rw [hc,hj] at hi
    exact List.NodupKeys.eq_of_fst_eq s.streams.nodupKeys he he'
      (congrArg Prod.snd (Option.some.inj hi)).symm

theorem owes_pump_modify {k j : ℕ} {p : Pump} {f : Pump → Pump} {c : ConnIx} {l l' : List Pump}
    (hp : l[k]? = some p) (hl : l' = l.modify k f) :
    (∃ q, l'[j]? = some q ∧ q.phase.closes = some c) ↔
      if j = k then (f p).phase.closes = some c
      else ∃ q, l[j]? = some q ∧ q.phase.closes = some c := by
  subst hl
  rw [List.getElem?_modify]
  by_cases hj : j = k
  · subst hj
    simp [hp]
  · have hj' : ¬ k = j := fun he => hj he.symm
    simp [hj,hj']

theorem of_pump (h : Closing s) {k : ℕ} {p : Pump} {f : Pump → Pump} (hp : s.pumps[k]? = some p)
    (hl : s'.pumps = s.pumps.modify k f) (hloop : s'.loop = s.loop) (hc : p.phase.closes = none)
    (hc' : (f p).phase.closes = none) (hr : s'.removed = s.removed) (hcl : s'.closes = s.closes) :
    Closing s' := by
  refine h.of_same hr hcl (fun q c => ?_) (hloop ▸ h.all)
  cases q with
  | requestLoop => rw [Owes,Owes,hloop]
  | pump j =>
    rw [Owes,Owes,owes_pump_modify hp hl]
    split
    · rename_i hj
      subst hj
      simp [hp,hc,hc']
    · rfl

theorem of_loop (h : Closing s) (hp : s'.pumps = s.pumps) (hl : s'.loop.owes = s.loop.owes)
    (hr : s'.removed = s.removed) (hcl : s'.closes = s.closes) : Closing s' := by
  refine h.of_same hr hcl (fun q c => ?_) (hl ▸ h.all)
  cases q with
  | requestLoop => rw [Owes,Owes,hl]
  | pump j => rw [Owes,Owes,hp]

theorem effect (h : Closing s) (ht : Table s) {i : Option ℕ} (he : Effect s i s') : Closing s' := by
  cases he with
  | moved hq hl hw =>
    exact h.of_loop rfl ((owes_of_quiet hl).trans (owes_of_quiet hq).symm) rfl rfl
  | asked hl | opened hl | responded hl | ended hl => exact h.of_loop rfl (by rw [hl]; rfl) rfl rfl
  | marked hq => exact h.of_loop rfl (owes_of_quiet hq).symm rfl rfl
  | broke => exact h.of_loop rfl rfl rfl rfl
  | pumped data hp ho hc hc' hd => exact h.of_pump hp rfl rfl hc hc' rfl rfl
  | emitted hp he hk ho ht hc hc' hd => exact h.of_pump hp rfl rfl hc hc' rfl rfl
  | @spawned stream conn resp hl =>
    refine h.of_same rfl rfl (fun q c => ?_) List.nodup_nil
    cases q with
    | requestLoop => simp [Owes,hl,answer,goto,Loop.owes]
    | pump j =>
      constructor
      · rintro ⟨p,hp,hc⟩
        rcases getElem?_append_one hp with hp | ⟨-,rfl⟩
        · exact ⟨p,hp,hc⟩
        · cases hc
      · rintro ⟨p,hp,hc⟩
        exact ⟨p,List.getElem?_append_left (List.getElem?_eq_some_iff.mp hp).1 ▸ hp,hc⟩
  | @removed stream state resp hq hs hw =>
    refine h.remove (p := .requestLoop) ht hs rfl rfl (fun q c => ?_) (List.nodup_singleton _)
    cases q with
    | requestLoop =>
      simp only [Owes,owes_of_quiet hq,true_and]
      simp [goto,Loop.owes]
    | pump j => simp [Owes,goto]
  | @dropped k p state hp hd hs =>
    refine h.remove (p := .pump k) ht hs rfl rfl (fun q c => ?_) h.all
    cases q with
    | requestLoop => simp [Owes,setPump]
    | pump j =>
      refine Iff.trans (owes_pump_modify hp rfl) ?_
      split
      · rename_i hj
        subst hj
        simp [Owes,hp,hd,PumpPhase.closes,eq_comm]
      · rename_i hj
        simp [Owes,hj]
  | @closed conn resp hl =>
    refine h.close (p := .requestLoop) (c := conn) ht (by simp [Owes,hl,Loop.owes]) rfl rfl
      (fun q d => ?_) List.nodup_nil
    cases q with
    | requestLoop => simp [Owes,hl,answer,goto,Loop.owes]
    | pump j => simp [Owes,answer,goto,closeConn]
  | @closedNext conn conns hl =>
    have hn := h.all
    rw [hl] at hn
    obtain ⟨hno,hn⟩ := List.nodup_cons.mp hn
    refine h.close (p := .requestLoop) (c := conn) ht (by simp [Owes,hl,Loop.owes]) rfl rfl
      (fun q d => ?_) hn
    cases q with
    | requestLoop =>
      simp only [Owes,hl,goto,Loop.owes,List.mem_cons,true_and]
      constructor
      · intro hd
        exact ⟨.inr hd,fun he => hno (he ▸ hd)⟩
      · rintro ⟨hd | hd,hne⟩
        · exact (hne hd).elim
        · exact hd
    | pump j => simp [Owes,goto,closeConn]
  | closedAll hl => exact h.removeAll ht hl
  | @closedPump k p conn hp hd =>
    refine h.close (p := .pump k) (c := conn) ht ⟨p,hp,by rw [hd]; rfl⟩ rfl rfl (fun q d => ?_) h.all
    cases q with
    | requestLoop => simp [Owes,setPump,closeConn]
    | pump j =>
      refine Iff.trans (owes_pump_modify hp rfl) ?_
      split
      · rename_i hj
        subst hj
        simp [Owes,hp,hd,PumpPhase.closes,eq_comm]
      · rename_i hj
        simp [Owes,hj]

end Closing

end Daemon

end Limux
