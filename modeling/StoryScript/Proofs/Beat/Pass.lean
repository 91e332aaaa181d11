import Mathlib
import StoryScript.Proofs.Beat.Marks
import StoryScript.Proofs.Beat.Tries

/-! # Passes through a chain of branches

A pass begins when a frame comes to the first member of a chain and goes on as long as the frame
stands in the chain, through the bodies that are walked meanwhile and whatever the host changes.
During a pass each member is tried at most once, in their order: each is refused until the condition
of one holds at that moment, that one is entered, and the ones after it are skipped.
-/

namespace StoryScript

variable {outer : List Frame} {play : Play}

namespace Play

/-- The moments at which a beat executes a command of the frame at the depth given. -/
def executionAt (depth : Nat) (play : Play) : Beat → List Play
  | .execute _ => if play.frames.length = depth then [play] else []
  | _ => []

/-- The moments among beats at which a command of the frame at the depth given is executed. -/
def executionsAt (depth : Nat) (play : Play) : List Beat → List Play
  | [] => []
  | beat :: beats => play.executionAt depth beat ++ (play.after beat).executionsAt depth beats

theorem executionsAt_concat (depth : Nat) (play : Play) (beats : List Beat) (beat : Beat) :
    play.executionsAt depth (beats ++ [beat]) =
      play.executionsAt depth beats ++ (play.afterAll beats).executionAt depth beat := by
  induction beats generalizing play with
  | nil => simp [executionsAt]
  | cons first beats ih =>
    rw [List.cons_append, executionsAt, ih, executionsAt, List.append_assoc, afterAll_cons]

theorem afterAll_concat (play : Play) (beats : List Beat) (beat : Beat) :
    play.afterAll (beats ++ [beat]) = (play.afterAll beats).after beat :=
  afterAll_append play beats [beat]

end Play

namespace Chain

variable {chain : Chain} {frame moved : Frame} {place other : Nat} {inner : List Frame}

def Walks (chain : Chain) (outer : List Frame) (play : Play) : Prop :=
  ∃ inner frame place, play.frames = inner ++ frame :: outer ∧ chain.StandsIn frame place

/-- The beats of a pass: the frame comes to the first member, and before each beat it stands in
the chain. -/
structure Pass (chain : Chain) (outer : List Frame) (play : Play) (beats : List Beat) : Prop where
  arrives : ∃ frame, play.frames = frame :: outer ∧ chain.StandsIn frame 0
  stays : ∀ before beat, before ++ [beat] <+: beats →
    beat ≠ .restart ∧ chain.Walks outer (play.afterAll before)

/-- What a pass has done: the members up to some place have been tried in their order, these are the
ones that the frame is past or whose body is walked, and the frame's mark says whether one has been
entered. -/
structure Record (chain : Chain) (outer : List Frame) (play : Play) (beats : List Beat)
    (tried : List Command) (taken : Bool) : Prop where
  tries : Tries outer tried (play.executionsAt (outer.length + 1) beats) taken
  members : tried <+: chain.members
  stands : ∀ frame place, (play.afterAll beats).frames = frame :: outer →
    chain.StandsIn frame place → tried.length = place ∧
      ∀ member ∈ chain.members[place]?, member.continuesChain = true → frame.branchTaken = taken
  inside : ∀ first inner frame place,
    (play.afterAll beats).frames = first :: inner ++ frame :: outer →
    chain.StandsIn frame place →
      tried.length = place + 1 ∧ taken = true ∧ frame.branchTaken = true

theorem continuesChain_of_getElem? {member : Command}
    (h : chain.members[place + 1]? = some member) : member.continuesChain = true :=
  chain.continues _ (List.mem_of_getElem? h)

namespace Record

variable {beats : List Beat} {tried : List Command} {member : Command} {taken : Bool} {beat : Beat}
  {input : Option Input}

theorem arrived (hf : play.frames = frame :: outer) (hin : chain.StandsIn frame 0)
    (hready : frame.Ready) : chain.Record outer play [] [] false := by
  refine ⟨.none, List.nil_prefix, fun other place ho hother => ?_,
    fun first inner other place ho => ?_⟩
  · obtain ⟨rfl, -⟩ := List.cons.inj (hf.symm.trans ho)
    obtain rfl : place = 0 := hin.place_eq hother 0 rfl
    exact ⟨rfl, fun member hm hcont => hready chain hin (by cases hm; exact hcont)⟩
  · have hlength := congrArg List.length (hf.symm.trans ho)
    simp only [List.cons_append, List.length_cons, List.length_append] at hlength
    omega

theorem of_frames_eq (h : chain.Record outer play beats tried taken)
    (hf : ((play.afterAll beats).after beat).frames = (play.afterAll beats).frames)
    (hnone : (play.afterAll beats).executionAt (outer.length + 1) beat = []) :
    chain.Record outer play (beats ++ [beat]) tried taken := by
  refine ⟨?_, h.members, fun frame place hframes => ?_, fun first inner frame place hframes => ?_⟩
  · rw [Play.executionsAt_concat, hnone, List.append_nil]
    exact h.tries
  · rw [Play.afterAll_concat, hf] at hframes
    exact h.stands frame place hframes
  · rw [Play.afterAll_concat, hf] at hframes
    exact h.inside first inner frame place hframes

theorem members_concat (h : chain.Record outer play beats tried taken)
    (hm : chain.members[tried.length]? = some member) : tried ++ [member] <+: chain.members := by
  have htake := List.take_prefix (tried.length + 1) chain.members
  rwa [List.take_add_one, hm, ← List.prefix_iff_eq_take.1 h.members] at htake

theorem tries_concat (htries : Tries outer (tried ++ [member])
      (play.executionsAt (outer.length + 1) beats ++ [play.afterAll beats]) taken)
    (hf : (play.afterAll beats).frames = frame :: outer) :
    Tries outer (tried ++ [member])
      (play.executionsAt (outer.length + 1) (beats ++ [.execute input])) taken := by
  rw [Play.executionsAt_concat, Play.executionAt, hf, List.length_cons, if_pos rfl]
  exact htries

theorem of_next (h : chain.Record outer play beats tried taken)
    (hf : (play.afterAll beats).frames = frame :: outer) (hin : chain.StandsIn frame tried.length)
    (hm : chain.members[tried.length]? = some member)
    (hafter : ((play.afterAll beats).after (.execute input)).frames = moved :: outer)
    (ha : moved.ahead = frame.ahead.tail)
    (htries : Tries outer (tried ++ [member])
      (play.executionsAt (outer.length + 1) beats ++ [play.afterAll beats]) moved.branchTaken) :
    chain.Record outer play (beats ++ [.execute input]) (tried ++ [member]) moved.branchTaken := by
  refine ⟨tries_concat htries hf, h.members_concat hm, fun found place hfound hplace => ?_,
    fun first inner found place hfound => ?_⟩
  · rw [Play.afterAll_concat, hafter] at hfound
    obtain ⟨rfl, -⟩ := List.cons.inj hfound
    refine ⟨?_, fun _ _ _ => rfl⟩
    rw [List.length_append, List.length_singleton]
    exact (hin.place_eq hplace 1 (ha.trans List.drop_one.symm)).symm
  · rw [Play.afterAll_concat, hafter] at hfound
    have hlength := congrArg List.length hfound
    simp only [List.cons_append, List.length_cons, List.length_append] at hlength
    omega

theorem of_enter (h : chain.Record outer play beats tried taken) {body : List Command}
    (hf : (play.afterAll beats).frames = frame :: outer) (hin : chain.StandsIn frame tried.length)
    (hm : chain.members[tried.length]? = some member)
    (hafter : ((play.afterAll beats).after (.execute input)).frames =
      .start body :: frame.takeBranch :: outer)
    (htries : Tries outer (tried ++ [member])
      (play.executionsAt (outer.length + 1) beats ++ [play.afterAll beats]) true) :
    chain.Record outer play (beats ++ [.execute input]) (tried ++ [member]) true := by
  refine ⟨tries_concat htries hf, h.members_concat hm, fun found place hfound => ?_,
    fun first inner found place hfound hplace => ?_⟩
  · rw [Play.afterAll_concat, hafter] at hfound
    simpa using congrArg List.length hfound
  · rw [Play.afterAll_concat, hafter] at hfound
    replace hfound : [.start body] ++ frame.takeBranch :: outer = _ := hfound
    obtain ⟨-, rfl⟩ := Frame.eq_of_append_eq hfound
    refine ⟨?_, rfl, rfl⟩
    rw [List.length_append, List.length_singleton]
    exact congrArg (· + 1) (hin.place_eq hplace 0 rfl).symm

/-- What happens while a body is walked leaves the record as it is. -/
theorem of_inside (h : chain.Record outer play beats tried true) {first : Frame}
    (hf : (play.afterAll beats).frames = first :: inner ++ frame :: outer)
    (hin : chain.StandsIn frame place) (hlength : tried.length = place + 1)
    (hmark : frame.branchTaken = true) (hb : beat ≠ .restart) :
    chain.Record outer play (beats ++ [beat]) tried true := by
  have hmoves := @Play.moves_after (play.afterAll beats) beat hb
  refine ⟨?_, h.members, fun moved other hmoved hother => ?_,
    fun start inside moved other hmoved hother => ?_⟩
  · have hnone : (play.afterAll beats).executionAt (outer.length + 1) beat = [] := by
      cases beat with
      | execute input =>
        rw [Play.executionAt, hf, if_neg]
        simp only [List.cons_append, List.length_cons, List.length_append]
        omega
      | _ => rfl
    rw [Play.executionsAt_concat, hnone, List.append_nil]
    exact h.tries
  · rw [Play.afterAll_concat, ← List.nil_append (moved :: outer)] at hmoved
    obtain ⟨hne, -⟩ | ⟨-, rfl⟩ := hmoves.inside hf hmoved hother
    · exact absurd rfl hne
    · refine ⟨hlength.trans ?_, fun _ _ _ => hmark⟩
      exact (hin.place_eq hother 1 List.drop_one.symm).symm
  · rw [Play.afterAll_concat] at hmoved
    obtain ⟨-, rfl⟩ | ⟨hnil, -⟩ := hmoves.inside hf hmoved hother
    · exact ⟨hlength.trans (congrArg (· + 1) (hin.place_eq hother 0 rfl).symm), rfl,
        hmark⟩
    · cases hnil

theorem taken_eq_false (h : chain.Record outer play beats tried taken)
    (hf : (play.afterAll beats).frames = frame :: outer) (hin : chain.StandsIn frame tried.length)
    (hm : chain.members[tried.length]? = some member)
    (hk : member.continuesChain = true → frame.branchTaken = false) : taken = false := by
  have hmark := (h.stands frame tried.length hf hin).2
  cases tried with
  | nil =>
    have htries := h.tries
    generalize play.executionsAt (outer.length + 1) beats = moments at htries
    cases htries
    rfl
  | cons first tried =>
    have hcontinues := continuesChain_of_getElem? hm
    rw [← hmark member hm hcontinues]
    exact hk hcontinues

theorem exists_of_execute (h : chain.Record outer play beats tried taken)
    (hf : (play.afterAll beats).frames = frame :: outer) (hin : chain.StandsIn frame tried.length)
    (input : Option Input) :
    ∃ tried taken, chain.Record outer play (beats ++ [.execute input]) tried taken := by
  obtain ⟨member, hm, hc, hbranch⟩ := hin.current?
  -- A member is skipped only because of the mark, which by the record means that one was entered.
  by_cases hskip : member.continuesChain = true ∧ frame.branchTaken = true
  · have hskips := Play.skips hf hc hskip.1 hskip.2
    obtain rfl : frame.branchTaken = taken :=
      (h.stands frame tried.length hf hin).2 member hm hskip.1
    obtain ⟨other, ho, -, hafter⟩ := id hskips
    obtain ⟨rfl, -⟩ := List.cons.inj (hf.symm.trans ho)
    have hnext := congrArg Play.frames (hafter (play.afterAll beats).store input)
    refine ⟨_, _, h.of_next hf hin hm hnext rfl ?_⟩
    have htries := h.tries
    rw [hskip.2] at htries
    rw [Frame.next, hskip.2]
    exact htries.skip hskips
  · have hk (hcont : member.continuesChain = true) : frame.branchTaken = false :=
      Bool.eq_false_iff.2 fun ht => hskip ⟨hcont, ht⟩
    obtain rfl := h.taken_eq_false hf hin hm hk
    obtain henters | hrefuses := Play.enters_or_refuses hf hc hbranch hk
    · obtain ⟨other, body, ho, -, -, hafter⟩ := id henters
      obtain ⟨rfl, -⟩ := List.cons.inj (hf.symm.trans ho)
      have hnext := congrArg Play.frames (hafter input)
      exact ⟨_, _, h.of_enter hf hin hm hnext (h.tries.append (.entered henters .nil))⟩
    · obtain ⟨other, ho, -, -, hafter⟩ := id hrefuses
      obtain ⟨rfl, -⟩ := List.cons.inj (hf.symm.trans ho)
      have hnext := congrArg Play.frames (hafter input)
      exact ⟨_, _, h.of_next hf hin hm hnext rfl (h.tries.append (.refused hrefuses .none))⟩

theorem exists_concat (h : chain.Record outer play beats tried taken)
    (hw : chain.Walks outer (play.afterAll beats)) (hb : beat ≠ .restart) :
    ∃ tried taken, chain.Record outer play (beats ++ [beat]) tried taken := by
  obtain ⟨inner, frame, place, hf, hin⟩ := hw
  -- Inside a body no beat reaches the frame; otherwise only an execution changes it.
  cases inner with
  | cons first inner =>
    obtain ⟨hlength, rfl, hmark⟩ := h.inside first inner frame place hf hin
    exact ⟨tried, true, h.of_inside hf hin hlength hmark hb⟩
  | nil =>
    obtain ⟨rfl, -⟩ := h.stands frame place hf hin
    cases beat with
    | execute input => exact h.exists_of_execute hf hin input
    | leave =>
      obtain ⟨member, -, hc, hbranch⟩ := hin.current?
      have hnone : Frame.leave? (frame :: outer) = none :=
        Frame.leave?_of_current? hc (by rintro rfl; cases hbranch)
      refine ⟨tried, taken, h.of_frames_eq ?_ rfl⟩
      rw [Play.after, hf, List.nil_append, hnone, Option.getD_none]
    | restart => exact absurd rfl hb
    | assign assignment => exact ⟨tried, taken, h.of_frames_eq rfl rfl⟩
    | replaceStore store => exact ⟨tried, taken, h.of_frames_eq rfl rfl⟩

end Record

namespace Pass

variable {beats : List Beat} {beat : Beat}

theorem concat (h : chain.Pass outer play beats) (hb : beat ≠ .restart)
    (hw : chain.Walks outer (play.afterAll beats)) : chain.Pass outer play (beats ++ [beat]) := by
  refine ⟨h.arrives, fun before other hprefix => ?_⟩
  obtain hsame | hprefix := List.prefix_concat_iff.1 hprefix
  · obtain ⟨rfl, hlast⟩ := List.append_inj' hsame rfl
    obtain rfl := List.singleton_inj.1 hlast
    exact ⟨hb, hw⟩
  · exact h.stays before other hprefix

theorem init (h : chain.Pass outer play (beats ++ [beat])) : chain.Pass outer play beats :=
  ⟨h.arrives, fun before other hp => h.stays before other (hp.trans (List.prefix_append _ _))⟩

theorem exists_record (h : chain.Pass outer play beats) (ht : Frame.Tidy play.frames) :
    ∃ tried taken, chain.Record outer play beats tried taken := by
  induction beats using List.reverseRecOn with
  | nil =>
    obtain ⟨frame, hf, hin⟩ := h.arrives
    rw [hf] at ht
    obtain _ | ⟨_, _, hready, -⟩ := ht
    exact ⟨[], false, .arrived hf hin hready⟩
  | append_singleton beats beat ih =>
    obtain ⟨tried, taken, hrecord⟩ := ih h.init
    obtain ⟨hb, hw⟩ := h.stays beats beat (List.prefix_refl _)
    exact hrecord.exists_concat hw hb

end Pass

theorem head_of_start {script : List Command} (hf : [.start script] = inner ++ frame :: outer)
    (hin : chain.StandsIn frame place) : inner = [] ∧ place = 0 := by
  obtain ⟨rfl, hframe⟩ : inner = [] ∧ .start script = frame := by
    cases inner with
    | nil => exact ⟨rfl, (List.cons.inj hf).1⟩
    | cons first inner => simp at hf
  rw [← hframe] at hin
  exact ⟨rfl, hin.place_of_start⟩

/-- Whenever a frame stands in a chain, the beats up to there end in a pass. -/
theorem exists_pass {script : List Command} {stepLimit : Nat} {beats : List Beat}
    (hw : chain.Walks outer ((Play.start script stepLimit).afterAll beats)) :
    ∃ arrival pass, beats = arrival ++ pass ∧
      chain.Pass outer ((Play.start script stepLimit).afterAll arrival) pass := by
  induction beats using List.reverseRecOn with
  | nil =>
    obtain ⟨inner, frame, place, hf, hin⟩ := hw
    obtain ⟨rfl, rfl⟩ := head_of_start hf hin
    exact ⟨[], [], rfl, ⟨frame, hf, hin⟩, by simp⟩
  | append_singleton beats beat ih =>
    obtain ⟨inner, frame, place, hf, hin⟩ := hw
    -- A frame that is not at the first member has stood in the chain one beat before.
    by_cases hhead : inner = [] ∧ place = 0
    · obtain ⟨rfl, rfl⟩ := hhead
      exact ⟨beats ++ [beat], [], (List.append_nil _).symm, ⟨frame, hf, hin⟩, by simp⟩
    · have hb : beat ≠ .restart := by
        rintro rfl
        rw [Play.afterAll_concat] at hf
        exact hhead (head_of_start hf hin)
      have hstack := (Play.nested_start script stepLimit).afterAll beats
      rw [Play.afterAll_concat] at hf
      have hwalks := ((Play.moves_after hb).walks hstack hf hin).resolve_left hhead
      obtain ⟨arrival, pass, rfl, hpass⟩ := ih hwalks
      rw [Play.afterAll_append] at hwalks
      exact ⟨arrival, pass ++ [beat], (List.append_assoc ..), hpass.concat hb hwalks⟩

end Chain

/-- In every run, whatever the host does meanwhile: a frame that is at a branch stands in a chain,
whenever a frame stands in a chain this is in a pass through the chain, and every pass tries the
members of its chain in their order, so at most the first one whose condition holds at its moment is
entered. -/
theorem tries_of_pass (script : List Command) (stepLimit : Nat) (operations : List Operation) :
    ∀ beats, beats <+: (Play.start script stepLimit).beats operations →
      (Play.start script stepLimit).Passes operations
        ((Play.start script stepLimit).afterAll beats) ∧
      (∀ frame outer command, ((Play.start script stepLimit).afterAll beats).frames =
          frame :: outer → frame.current? = some command → command.isBranch = true →
        ∃ chain : Chain, chain.Walks outer ((Play.start script stepLimit).afterAll beats)) ∧
      ∀ (chain : Chain) (outer : List Frame),
        (chain.Walks outer ((Play.start script stepLimit).afterAll beats) →
          ∃ arrival pass, beats = arrival ++ pass ∧
            chain.Pass outer ((Play.start script stepLimit).afterAll arrival) pass) ∧
        ∀ arrival pass, beats = arrival ++ pass →
          chain.Pass outer ((Play.start script stepLimit).afterAll arrival) pass →
          ∃ tried taken, chain.Record outer ((Play.start script stepLimit).afterAll arrival) pass
            tried taken := by
  intro beats hbeats
  have hm : (Play.start script stepLimit).Moment operations
      ((Play.start script stepLimit).afterAll beats) := ⟨beats, hbeats, rfl⟩
  refine ⟨hm.passes, fun frame outer command hf hc hb => ?_,
    fun chain outer => ⟨Chain.exists_pass, ?_⟩⟩
  · have hstack := hm.stack
    rw [hf] at hstack
    obtain _ | ⟨hs, -, -⟩ := hstack
    obtain ⟨chain, place, hin⟩ := Chain.exists_standsIn hs hc hb
    exact ⟨chain, [], frame, place, hf, hin⟩
  · intro arrival pass _ hpass
    exact hpass.exists_record (Play.tidy_afterAll script stepLimit arrival)

def corner : List Command :=
  [.label "corner" [],
    .ifBranch "lit" [.dialogue none "A light."],
    .elifBranch "open" [.dialogue none "A door.", .jump "corner"],
    .elseBranch [.dialogue none "It is dark."]]

def cornerChain : Chain where
  before := [.label "corner" []]
  first := .ifBranch "lit" [.dialogue none "A light."]
  rest := [.elifBranch "open" [.dialogue none "A door.", .jump "corner"],
    .elseBranch [.dialogue none "It is dark."]]
  after := []
  isBranch_first := rfl
  begins := by simp [Command.continuesChain]
  continues := by simp [Command.continuesChain]
  ends := by simp

def cornerOperations : List Operation :=
  [.assign (.setVariable "open" (.bool true)), .advance none,
    .assign (.setVariable "open" (.bool false)), .advance (some .proceed)]

theorem tries_of_pass_corner :
    ∃ arrival pass, (Play.start corner 9).beats cornerOperations = arrival ++ pass ∧
      cornerChain.Pass [] ((Play.start corner 9).afterAll arrival) pass ∧
      Chain.Tries [] cornerChain.members
        (((Play.start corner 9).afterAll arrival).executionsAt 1 pass) true := by
  have hframes : ((Play.start corner 9).run cornerOperations).frames =
      [⟨[.dialogue none "It is dark."], [.dialogue none "It is dark."], true, false⟩,
        ⟨corner, [.elseBranch [.dialogue none "It is dark."]], false, true⟩] := by
    cbv
  have hin : cornerChain.StandsIn
      ⟨corner, [.elseBranch [.dialogue none "It is dark."]], false, true⟩ 2 :=
    ⟨rfl, rfl, by decide⟩
  rw [← Play.afterAll_beats] at hframes
  obtain ⟨hpass, hrecord⟩ :=
    (tries_of_pass corner 9 cornerOperations _ (List.prefix_refl _)).2.2 cornerChain []
  obtain ⟨arrival, pass, hsplit, hthrough⟩ := hpass ⟨[_], _, 2, hframes, hin⟩
  obtain ⟨tried, taken, hdone⟩ := hrecord arrival pass hsplit hthrough
  rw [hsplit, Play.afterAll_append] at hframes
  obtain ⟨hlength, rfl, -⟩ := hdone.inside _ [] _ 2 hframes hin
  have htries := hdone.tries
  rw [hdone.members.eq_of_length hlength] at htries
  exact ⟨arrival, pass, hsplit, hthrough, htries⟩

end StoryScript
