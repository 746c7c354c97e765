import Mathlib.Data.List.Basic
import Mathlib.Logic.Function.Basic

/-! # Frames of several queues on one line
Producers put whole frames into queues. A sender takes one symbol at a time, and keeps
to the queue of the frame under way until a symbol ends it. -/

namespace FrameMux

variable {ι α : Type*} [DecidableEq ι]

/-- The symbols waiting, the queue of the frame under way, the frames put into each
queue, and the symbols sent with the queues they came from. -/
structure Mux (ι α : Type*) where
  queues : ι → List α
  current : Option ι
  accepted : ι → List (List α)
  sent : List (ι × α)

namespace Mux

def empty : Mux ι α := ⟨fun _ => [], none, fun _ => [], []⟩

def put (mux : Mux ι α) (source : ι) (frame : List α) : Mux ι α :=
  { mux with
    queues := Function.update mux.queues source (mux.queues source ++ frame)
    accepted := Function.update mux.accepted source (mux.accepted source ++ [frame]) }

def send (isEnd : α → Bool) (mux : Mux ι α) (source : ι) : Mux ι α :=
  match mux.queues source with
  | [] => mux
  | symbol :: rest =>
      { mux with
        queues := Function.update mux.queues source rest
        current := if isEnd symbol then none else some source
        sent := mux.sent ++ [(source, symbol)] }

end Mux

/-- Only the last symbol of a frame ends it. -/
def IsFrame (isEnd : α → Bool) (frame : List α) : Prop :=
  ∃ body last, frame = body ++ [last] ∧ isEnd last = true ∧ ∀ symbol ∈ body, isEnd symbol = false

/-- The frames of one queue, in the order they are sent. -/
def framesOf (source : ι) (order : List (ι × List α)) : List (List α) :=
  (order.filter (·.1 = source)).map Prod.snd

/-- The symbols of frames sent one after the other. -/
def symbols (order : List (ι × List α)) : List (ι × α) :=
  order.flatMap fun frame => frame.2.map (Prod.mk frame.1)

theorem framesOf_concat (source other : ι) (order : List (ι × List α)) (frame : List α) :
    framesOf source (order ++ [(other, frame)]) =
      framesOf source order ++ if source = other then [frame] else [] := by
  rw [framesOf, List.filter_append, List.map_append]
  by_cases hsame : source = other
  · simp [framesOf, hsame]
  · simp [framesOf, hsame, Ne.symm hsame]

omit [DecidableEq ι] in
theorem symbols_concat (order : List (ι × List α)) (source : ι) (frame : List α) :
    symbols (order ++ [(source, frame)]) = symbols order ++ frame.map (Prod.mk source) := by
  simp [symbols]

variable {isEnd : α → Bool}

theorem IsFrame.rest_ne_nil {part rest : List α} (h : IsFrame isEnd (part ++ rest))
    (hpart : ∀ symbol ∈ part, isEnd symbol = false) : rest ≠ [] := by
  rintro rfl
  obtain ⟨body, last, hframe, hlast, -⟩ := h
  rw [List.append_nil] at hframe
  simp [hpart last (by simp [hframe])] at hlast

theorem IsFrame.rest_eq_nil {part rest : List α} {symbol : α}
    (h : IsFrame isEnd (part ++ symbol :: rest)) (hend : isEnd symbol = true) : rest = [] := by
  obtain ⟨body, last, hframe, -, hbody⟩ := h
  rcases rest.eq_nil_or_concat with hnil | ⟨front, final, rfl⟩
  · exact hnil
  · rw [List.concat_eq_append, ← List.cons_append, ← List.append_assoc] at hframe
    have hmem : symbol ∈ body := by
      rw [← (List.append_inj' hframe rfl).1]
      simp
    simp [hbody symbol hmem] at hend

/-! ## Between frames and within one -/

variable {mux : Mux ι α} {order : List (ι × List α)} {left : ι → List (List α)}

/-- Whole frames have been sent, and whole frames are left in the queues. -/
structure Closed (mux : Mux ι α) (order : List (ι × List α)) (left : ι → List (List α)) :
    Prop where
  sent : mux.sent = symbols order
  accepted : ∀ source, mux.accepted source = framesOf source order ++ left source
  queues : ∀ source, mux.queues source = (left source).flatten

/-- A part of one frame has been sent as well, and the rest of it waits first in its queue. -/
structure Opened (isEnd : α → Bool) (mux : Mux ι α) (order : List (ι × List α)) (owner : ι)
    (part rest : List α) (left : ι → List (List α)) : Prop where
  sent : mux.sent = symbols order ++ part.map (Prod.mk owner)
  accepted : ∀ source, mux.accepted source =
    framesOf source order ++ (if source = owner then [part ++ rest] else []) ++ left source
  queues : ∀ source, mux.queues source =
    (if source = owner then rest else []) ++ (left source).flatten
  unended : ∀ symbol ∈ part, isEnd symbol = false

/-- Every frame is whole on the line, but for the one under way. -/
structure Framed (isEnd : α → Bool) (mux : Mux ι α) : Prop where
  frames : ∀ source, ∀ frame ∈ mux.accepted source, IsFrame isEnd frame
  progress : (mux.current = none ∧ ∃ order left, Closed mux order left) ∨
    ∃ source, mux.current = some source ∧
      ∃ order part rest left, Opened isEnd mux order source part rest left

theorem Framed.empty : Framed isEnd (Mux.empty : Mux ι α) where
  frames source frame hmem := by cases hmem
  progress := .inl ⟨rfl, [], fun _ => [], ⟨rfl, fun _ => rfl, fun _ => rfl⟩⟩

theorem Closed.put (h : Closed mux order left) (source : ι) (frame : List α) :
    Closed (mux.put source frame) order
      (Function.update left source (left source ++ [frame])) where
  sent := h.sent
  accepted other := by
    rcases eq_or_ne other source with rfl | hne
    · simp [Mux.put, h.accepted]
    · simp [Mux.put, h.accepted, hne]
  queues other := by
    rcases eq_or_ne other source with rfl | hne
    · simp [Mux.put, h.queues]
    · simp [Mux.put, h.queues, hne]

theorem Opened.put {owner : ι} {part rest : List α} (h : Opened isEnd mux order owner part rest left)
    (source : ι) (frame : List α) :
    Opened isEnd (mux.put source frame) order owner part rest
      (Function.update left source (left source ++ [frame])) where
  sent := h.sent
  accepted other := by
    rcases eq_or_ne other source with rfl | hne
    · simp [Mux.put, h.accepted]
    · simp [Mux.put, h.accepted, hne]
  queues other := by
    rcases eq_or_ne other source with rfl | hne
    · simp [Mux.put, h.queues]
    · simp [Mux.put, h.queues, hne]
  unended := h.unended

theorem Framed.put (h : Framed isEnd mux) (source : ι) {frame : List α}
    (hframe : IsFrame isEnd frame) : Framed isEnd (mux.put source frame) where
  frames other found hmem := by
    rcases eq_or_ne other source with rfl | hne
    · simp only [Mux.put, Function.update_self, List.mem_append, List.mem_singleton] at hmem
      rcases hmem with hold | rfl
      · exact h.frames other found hold
      · exact hframe
    · simp only [Mux.put, Function.update_of_ne hne] at hmem
      exact h.frames other found hmem
  progress := by
    rcases h.progress with ⟨hnone, order, left, hclosed⟩ |
      ⟨other, hsome, order, part, rest, left, hopened⟩
    · exact .inl ⟨hnone, order, _, hclosed.put source frame⟩
    · exact .inr ⟨other, hsome, order, part, rest, _, hopened.put source frame⟩

/-- The first frame of a queue that holds symbols can be opened. -/
theorem Closed.open (h : Closed mux order left) {source : ι} (hne : mux.queues source ≠ []) :
    ∃ frame, Opened isEnd mux order source [] frame
      (Function.update left source (left source).tail) := by
  rw [h.queues source] at hne
  cases hleft : left source with
  | nil => simp [hleft] at hne
  | cons frame frames =>
      refine ⟨frame, by simp [h.sent], fun other => ?_, fun other => ?_, by simp⟩
      · rcases eq_or_ne other source with rfl | hother
        · simp [h.accepted, hleft]
        · simp [h.accepted, hother]
      · rcases eq_or_ne other source with rfl | hother
        · simp [h.queues, hleft]
        · simp [h.queues, hother]

/-- The next symbol of the open frame either ends it or leaves it open. -/
theorem Opened.send {source : ι} {part rest : List α}
    (h : Opened isEnd mux order source part rest left)
    (hframe : IsFrame isEnd (part ++ rest)) :
    ((mux.send isEnd source).current = none ∧
        Closed (mux.send isEnd source) (order ++ [(source, part ++ rest)]) left) ∨
      ((mux.send isEnd source).current = some source ∧ ∃ symbol,
        Opened isEnd (mux.send isEnd source) order source (part ++ [symbol]) rest.tail left) := by
  cases rest with
  | nil => exact absurd rfl (hframe.rest_ne_nil h.unended)
  | cons symbol rest =>
      have hqueue : mux.queues source = symbol :: (rest ++ (left source).flatten) := by
        simp [h.queues]
      rw [Mux.send, hqueue]
      cases hend : isEnd symbol with
      | true =>
          have hrest := hframe.rest_eq_nil hend
          subst hrest
          refine .inl ⟨by simp [hend], ?_, fun other => ?_, fun other => ?_⟩
          · simp [h.sent, symbols_concat]
          · rw [framesOf_concat]
            exact h.accepted other
          · rcases eq_or_ne other source with rfl | hne
            · simp
            · simp [h.queues, hne]
      | false =>
          refine .inr ⟨by simp [hend], symbol, ?_, fun other => ?_, fun other => ?_, ?_⟩
          · simp [h.sent]
          · simpa using h.accepted other
          · rcases eq_or_ne other source with rfl | hne
            · simp
            · simp [h.queues, hne]
          · intro found hmem
            rcases List.mem_append.mp hmem with hold | hnew
            · exact h.unended found hold
            · rw [List.mem_singleton.mp hnew]
              exact hend

theorem Framed.of_opened (hframes : ∀ source, ∀ frame ∈ mux.accepted source, IsFrame isEnd frame)
    {source : ι} {part rest : List α} (h : Opened isEnd mux order source part rest left) :
    Framed isEnd (mux.send isEnd source) := by
  have hframe : IsFrame isEnd (part ++ rest) := hframes source _ (by simp [h.accepted])
  have hkept : (mux.send isEnd source).accepted = mux.accepted := by
    rw [Mux.send]
    split <;> rfl
  refine ⟨by rwa [hkept], ?_⟩
  rcases h.send hframe with ⟨hnone, hclosed⟩ | ⟨hsome, symbol, hopened⟩
  · exact .inl ⟨hnone, _, _, hclosed⟩
  · exact .inr ⟨source, hsome, _, _, _, _, hopened⟩

/-- Sending from the queue of the frame under way, or from any queue between frames,
keeps the frames whole. -/
theorem Framed.send (h : Framed isEnd mux) {source : ι}
    (hcurrent : ∀ other, mux.current = some other → other = source) :
    Framed isEnd (mux.send isEnd source) := by
  by_cases hempty : mux.queues source = []
  · rwa [Mux.send, hempty]
  · rcases h.progress with ⟨-, order, left, hclosed⟩ |
      ⟨other, hsome, order, part, rest, left, hopened⟩
    · obtain ⟨frame, hopened⟩ := hclosed.open hempty
      exact .of_opened h.frames hopened
    · rw [hcurrent other hsome] at hopened
      exact .of_opened h.frames hopened

/-- Several symbols sent from one queue. -/
def Mux.sends (isEnd : α → Bool) (mux : Mux ι α) (source : ι) : ℕ → Mux ι α
  | 0 => mux
  | count + 1 => (mux.send isEnd source).sends isEnd source count

/-- The queue of the frame under way after some of its symbols, or those of its successors. -/
def under (isEnd : α → Bool) (source : ι) (current : Option ι) (sent : List α) : Option ι :=
  sent.foldl (fun _ symbol => if isEnd symbol then none else some source) current

theorem Mux.sends_eq {source : ι} {count : ℕ} (hcount : count ≤ (mux.queues source).length) :
    mux.sends isEnd source count = { mux with
      queues := Function.update mux.queues source ((mux.queues source).drop count)
      current := under isEnd source mux.current ((mux.queues source).take count)
      sent := mux.sent ++ ((mux.queues source).take count).map (Prod.mk source) } := by
  induction count generalizing mux with
  | zero => simp [Mux.sends, under]
  | succ count ih =>
      cases hqueue : mux.queues source with
      | nil => simp [hqueue] at hcount
      | cons symbol rest =>
          have hsend : mux.send isEnd source = { mux with
              queues := Function.update mux.queues source rest
              current := if isEnd symbol then none else some source
              sent := mux.sent ++ [(source, symbol)] } := by rw [Mux.send, hqueue]
          have hrest : count ≤ ((mux.send isEnd source).queues source).length := by
            rw [hqueue] at hcount
            simpa [hsend] using hcount
          rw [Mux.sends, ih hrest, hsend]
          simp [under]

theorem Framed.sends (h : Framed isEnd mux) {source : ι}
    (hcurrent : ∀ other, mux.current = some other → other = source) (count : ℕ) :
    Framed isEnd (mux.sends isEnd source count) := by
  induction count generalizing mux with
  | zero => exact h
  | succ count ih =>
      refine ih (h.send hcurrent) fun other hother => ?_
      rw [Mux.send] at hother
      split at hother
      · exact hcurrent other hother
      · dsimp only at hother
        split_ifs at hother
        exact (Option.some.inj hother).symm

/-- What was sent starts a sequence of whole frames in which each queue's frames come
in the order they were put, each once. -/
theorem Framed.whole (h : Framed isEnd mux) : ∃ order : List (ι × List α),
    mux.sent <+: symbols order ∧ ∀ source, framesOf source order <+: mux.accepted source := by
  rcases h.progress with ⟨-, order, left, hclosed⟩ |
    ⟨owner, -, order, part, rest, left, hopened⟩
  · refine ⟨order, hclosed.sent ▸ List.prefix_refl _, fun source => ?_⟩
    rw [hclosed.accepted]
    exact List.prefix_append _ _
  · refine ⟨order ++ [(owner, part ++ rest)], ?_, fun source => ?_⟩
    · rw [hopened.sent, symbols_concat, List.map_append, ← List.append_assoc]
      exact List.prefix_append _ _
    · rw [hopened.accepted, framesOf_concat]
      exact List.prefix_append _ _

/-- What was sent is whole frames and a part of one more that no symbol ends; when the
queues are empty, every frame put was sent. -/
theorem Framed.parts (h : Framed isEnd mux) :
    ∃ (order : List (ι × List α)) (part : List (ι × α)),
      mux.sent = symbols order ++ part ∧ (∀ symbol ∈ part, isEnd symbol.2 = false) ∧
      (∀ source, framesOf source order <+: mux.accepted source) ∧
      ((∀ source, mux.queues source = []) →
        ∀ source, framesOf source order = mux.accepted source) := by
  rcases h.progress with ⟨-, order, left, hclosed⟩ |
    ⟨owner, -, order, part, rest, left, hopened⟩
  · refine ⟨order, [], by simp [hclosed.sent], by simp, fun source => ?_, fun hempty source => ?_⟩
    · rw [hclosed.accepted]
      exact List.prefix_append _ _
    · have hnone : left source = [] := by
        apply List.eq_nil_iff_forall_not_mem.mpr
        intro frame hframe
        have hqueue := hclosed.queues source
        rw [hempty source] at hqueue
        obtain ⟨body, last, hlast, -⟩ := h.frames source frame (by simp [hclosed.accepted, hframe])
        have hnil : frame = [] := List.flatten_eq_nil_iff.mp hqueue.symm frame hframe
        simp [hlast] at hnil
      rw [hclosed.accepted, hnone, List.append_nil]
  · refine ⟨order, part.map (Prod.mk owner), hopened.sent, ?_, fun source => ?_, fun hempty => ?_⟩
    · intro symbol hsymbol
      obtain ⟨value, hvalue, rfl⟩ := List.mem_map.mp hsymbol
      exact hopened.unended value hvalue
    · rw [hopened.accepted, List.append_assoc]
      exact List.prefix_append _ _
    · -- the frame under way has a symbol left in its queue
      have hframe := h.frames owner (part ++ rest) (by simp [hopened.accepted])
      have hqueue := hopened.queues owner
      rw [hempty owner, if_pos rfl] at hqueue
      exact absurd (List.append_eq_nil_iff.mp hqueue.symm).1 (hframe.rest_ne_nil hopened.unended)

theorem mem_framesOf {source : ι} {frame : List α} {order : List (ι × List α)} :
    frame ∈ framesOf source order ↔ (source, frame) ∈ order := by
  simp [framesOf]

/-- Where only the frames of one queue count, the others may be left out. -/
theorem flatMap_framesOf {β : Type*} {f : List α → List β} {source : ι}
    {order : List (ι × List α)} (h : ∀ entry ∈ order, entry.1 ≠ source → f entry.2 = []) :
    order.flatMap (fun entry => f entry.2) = (framesOf source order).flatMap f := by
  induction order with
  | nil => rfl
  | cons entry order ih =>
      obtain ⟨other, frame⟩ := entry
      have hrest := ih fun e he => h e (List.mem_cons_of_mem _ he)
      by_cases hsame : other = source
      · simpa [framesOf, hsame] using hrest
      · simpa [framesOf, hsame, h (other, frame) List.mem_cons_self hsame] using hrest

/-! ## No symbol is lost -/

/-- What was put into a queue was sent from it or waits in it. -/
def Conserves (mux : Mux ι α) : Prop :=
  ∀ source, (mux.accepted source).flatten =
    (mux.sent.filter (·.1 = source)).map Prod.snd ++ mux.queues source

theorem Conserves.empty : Conserves (Mux.empty : Mux ι α) := fun _ => rfl

theorem Conserves.put (h : Conserves mux) (source : ι) (frame : List α) :
    Conserves (mux.put source frame) := by
  intro other
  rcases eq_or_ne other source with rfl | hne
  · simp [Mux.put, h other]
  · simpa [Mux.put, hne] using h other

theorem Conserves.send (h : Conserves mux) (source : ι) : Conserves (mux.send isEnd source) := by
  intro other
  rw [Mux.send]
  split
  · exact h other
  · rename_i symbol rest hqueue
    have hold := h other
    rcases eq_or_ne other source with rfl | hne
    · simp [hold, hqueue]
    · simp [hold, hne, Ne.symm hne]

theorem Conserves.sends (h : Conserves mux) (source : ι) (count : ℕ) :
    Conserves (mux.sends isEnd source count) := by
  induction count generalizing mux with
  | zero => exact h
  | succ count ih => exact ih (h.send source)

end FrameMux
