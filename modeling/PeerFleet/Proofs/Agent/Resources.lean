import Mathlib.Data.Set.Function
import PeerFleet.Agent.Channel
import PeerFleet.Proofs.Url.Reading

/-! # What a request addresses

The path of a request is made of what the names of a call leave in it. From the path of a call with
plain names these can be read again, so that its request is told apart from the requests for
anything else. Names that leave nothing, or the same as other names, are mistaken for others.
-/

namespace PeerFleet

open Url

/-- Method and target of a request, by which the agent knows what it is for. -/
def Request.line (r : Request) : Method × String :=
  (r.method, r.url.target)

namespace Agent

namespace Call

def peerId? : Call → Option String
  | .enable _ peerId | .disable _ peerId | .delete _ peerId | .get _ peerId => some peerId
  | .create _ _ | .list _ => none

/-- What a call addresses: the peers of an interface, or one of them. -/
def resource (c : Call) : String × Option String :=
  (c.interface, c.peerId?)

structure Within (names : Set String) (c : Call) : Prop where
  interface_mem : c.interface ∈ names
  peerId_mem : ∀ peerId ∈ c.peerId?, peerId ∈ names

end Call

/-- Requests about a peer differ from the requests for anything else, for names of the set. -/
def Channel.TellsApart (ch : Channel) (names : Set String) : Prop :=
  ∀ c d : Call, c.Within names → d.Within names → c.peerId?.isSome → c.resource ≠ d.resource →
    (c.request ch).line ≠ (d.request ch).line

def collection (interface : Trace) : List String :=
  interface.extend ["v1", "interfaces"] ++ ["peers"]

def member (interface peerId : Trace) : List String :=
  peerId.extend (collection interface)

def Call.segments : Call → List String
  | .create i _ | .list i => collection (traceOf i)
  | .delete i p | .get i p => member (traceOf i) (traceOf p)
  | .enable i p => member (traceOf i) (traceOf p) ++ ["enable"]
  | .disable i p => member (traceOf i) (traceOf p) ++ ["disable"]

def root (base : Url) : List String :=
  if withoutTrailingSlash base.path = [""] then [] else withoutTrailingSlash base.path

variable {base : Url} {ch : Channel} {c d : Call} {i i' p p' : Trace} {path tail : List String}
  {interface peerId name : String} {names : Set String}

theorem extend_append (hne : path ≠ []) (front : List String) :
    i.extend (front ++ path) = front ++ i.extend path := by
  cases i with
  | nothing => rfl
  | parent => rw [Trace.extend, Trace.extend, List.dropLast_append_of_ne_nil hne, List.append_assoc]
  | kept cs => rw [Trace.extend, Trace.extend, List.append_assoc]

theorem two_le_length_extend (i : Trace) (h : 2 ≤ path.length) : 2 ≤ (i.extend path).length := by
  cases i <;> simp [Trace.extend] <;> omega

theorem ne_root_path (h : 2 ≤ path.length) : path ≠ [""] := by
  rintro rfl
  exact absurd h (by decide)

theorem pushSegment_word (hne : path ≠ [""])
    (h : name ∈ ["interfaces", "peers", "enable", "disable"]) :
    pushSegment path name = path ++ [name] := by
  have hw : traceOf name = .kept name.toList ∧ segmentOf name.toList = name := by
    simp only [List.mem_cons, List.not_mem_nil, or_false] at h
    rcases h with rfl | rfl | rfl | rfl <;> decide
  rw [pushSegment_kept hw.1, if_neg hne, hw.2]

theorem path_peersUrl (base : Url) (interface : String) (tail : List String) :
    (Channel.peersUrl base interface tail).path =
      tail.foldl pushSegment (root base ++ collection (traceOf interface)) := by
  have hv1 : traceOf "v1" = .kept "v1".toList ∧ segmentOf "v1".toList = "v1" := by decide
  have hlen : 2 ≤ (root base ++ (traceOf interface).extend ["v1", "interfaces"]).length := by
    rw [List.length_append]
    exact Nat.le_add_left_of_le (two_le_length_extend _ (by decide))
  have hstart : pushSegment (withoutTrailingSlash base.path) "v1" = root base ++ ["v1"] := by
    rw [pushSegment_kept hv1.1, hv1.2, root]
  have hnext : pushSegment (root base ++ ["v1"]) "interfaces" =
      root base ++ ["v1", "interfaces"] := by
    rw [pushSegment_word (by simp [List.append_eq_singleton_iff]) (by decide), List.append_assoc]
    rfl
  have hname : pushSegment (root base ++ ["v1", "interfaces"]) interface =
      root base ++ (traceOf interface).extend ["v1", "interfaces"] := by
    rw [pushSegment_eq_extend (ne_root_path (by simp)), extend_append (by simp)]
    intro s hs
    rw [List.getLast?_append_of_ne_nil _ (by simp)] at hs
    cases hs
    decide
  rw [Channel.peersUrl, Url.append]
  simp only [List.cons_append, List.nil_append, List.foldl_cons]
  rw [hstart, hnext, hname, pushSegment_word (ne_root_path hlen) (by decide), List.append_assoc]
  rfl

theorem two_le_length_collection (i : Trace) (front : List String) :
    2 ≤ (front ++ collection i).length := by
  have : 2 ≤ (i.extend ["v1", "interfaces"]).length := two_le_length_extend i (by decide)
  simp only [collection, List.length_append, List.length_singleton]
  omega

theorem pushSegment_member (front : List String) (i : Trace) (peerId : String) :
    pushSegment (front ++ collection i) peerId = front ++ member i (traceOf peerId) := by
  rw [pushSegment_eq_extend (ne_root_path (two_le_length_collection i front)),
    extend_append (by simp [collection]), member]
  intro s hs
  rw [collection, ← List.append_assoc, List.getLast?_concat] at hs
  cases hs
  decide

theorem path_request (ch : Channel) (c : Call) :
    (c.request ch).url.path = root ch.base ++ c.segments := by
  have hverb (i p : String) (verb : String)
      (h : verb ∈ ["interfaces", "peers", "enable", "disable"]) :
      pushSegment (root ch.base ++ member (traceOf i) (traceOf p)) verb =
        root ch.base ++ (member (traceOf i) (traceOf p) ++ [verb]) := by
    have hlen : 2 ≤ (root ch.base ++ member (traceOf i) (traceOf p)).length := by
      rw [member, ← extend_append (by simp [collection])]
      exact two_le_length_extend _ (two_le_length_collection _ _)
    rw [pushSegment_word (ne_root_path hlen) h, List.append_assoc]
  cases c with
  | create i n => exact path_peersUrl _ _ _
  | list i => exact path_peersUrl _ _ _
  | delete i p => exact (path_peersUrl _ _ _).trans (pushSegment_member _ _ _)
  | get i p => exact (path_peersUrl _ _ _).trans (pushSegment_member _ _ _)
  | enable i p =>
    refine (path_peersUrl _ _ _).trans ?_
    simp only [Call.tail, Call.interface, List.foldl_cons, List.foldl_nil, pushSegment_member]
    exact hverb i p _ (by decide)
  | disable i p =>
    refine (path_peersUrl _ _ _).trans ?_
    simp only [Call.tail, Call.interface, List.foldl_cons, List.foldl_nil, pushSegment_member]
    exact hverb i p _ (by decide)

/-- The path behind a bare host is read as its fixed words and the names that were put in, as long
as these are plain; nothing else of the base changes. -/
theorem names?_peersUrl (hb : base.path = [""]) (hn : ∀ name ∈ interface :: tail, Plain name) :
    (Channel.peersUrl base interface tail).names? =
        some (["v1", "interfaces", interface, "peers"] ++ tail) ∧
      (Channel.peersUrl base interface tail).scheme = base.scheme ∧
      (Channel.peersUrl base interface tail).userinfo = base.userinfo ∧
      (Channel.peersUrl base interface tail).host = base.host ∧
      (Channel.peersUrl base interface tail).port = base.port ∧
      (Channel.peersUrl base interface tail).query = base.query ∧
      (Channel.peersUrl base interface tail).fragment = base.fragment := by
  refine ⟨names?_eq_some (by simp) ?_, rfl, rfl, rfl, rfl, rfl, rfl⟩
  obtain ⟨hi, ht⟩ := List.forall_mem_cons.mp hn
  have hroot : root base = [] := by
    rw [root, hb]
    rfl
  have hcollection : collection (traceOf interface) =
      ["v1", "interfaces", interface, "peers"].map fun name => segmentOf name.toList := by
    have hwords : segmentOf "v1".toList = "v1" ∧ segmentOf "interfaces".toList = "interfaces" ∧
        segmentOf "peers".toList = "peers" := by decide
    rw [traceOf_eq_kept_iff.mpr hi]
    simp only [collection, Trace.extend, List.map_cons, List.map_nil, hwords]
    rfl
  rw [path_peersUrl, foldl_pushSegment_plain (ne_root_path (two_le_length_collection _ _))
    (by simp [collection]) ht, hroot, List.nil_append, hcollection, List.map_append]

def loopback : Url :=
  { scheme := .http, host := .ipv4 0x7F000001, port := some 7443 }

example : parseAddress .dotted "127.0.0.1:7443" false = .ok loopback :=
  rfl

theorem names?_peersUrl_slashed :
    (Channel.peersUrl loopback "wg0" ["ab/c+d=", "", "%2F é?#"]).names? =
        some ["v1", "interfaces", "wg0", "peers", "ab/c+d=", "", "%2F é?#"] ∧
      (Channel.peersUrl loopback "wg0" ["ab/c+d=", "", "%2F é?#"]).query = none := by
  have hplain : ∀ name ∈ ["wg0", "ab/c+d=", "", "%2F é?#"], Plain name := by decide
  have hbase : loopback.path = [""] := rfl
  obtain ⟨hnames, -, -, -, -, hquery, -⟩ := names?_peersUrl hbase hplain
  exact ⟨hnames, hquery⟩

/-- A query in the address of an agent stays in all its requests. -/
theorem exists_query_peersUrl : ∃ base : Url,
    parseAddress .dotted "127.0.0.1:7443?x:1" false = .ok base ∧ base.path = [""] ∧
      (∀ name ∈ ["wg0", "p"], Plain name) ∧
      (Channel.peersUrl base "wg0" ["p"]).query = some "x:1" :=
  ⟨_, rfl, rfl, by decide, rfl⟩

theorem slash_not_mem_extend (i : Trace) (h : ∀ s ∈ path, '/' ∉ s.toList) :
    ∀ s ∈ i.extend path, '/' ∉ s.toList := by
  intro s hs
  cases i with
  | nothing => exact h s hs
  | parent =>
    rcases List.mem_append.mp hs with hs | hs
    · exact h s (List.dropLast_subset _ hs)
    · rw [List.mem_singleton.mp hs]
      decide
  | kept cs =>
    rcases List.mem_append.mp hs with hs | hs
    · exact h s hs
    · rw [List.mem_singleton.mp hs]
      exact slash_not_mem_segmentOf cs

theorem slash_not_mem_collection (i : Trace) : ∀ s ∈ collection i, '/' ∉ s.toList := by
  have hword : ∀ s ∈ ["v1", "interfaces"], '/' ∉ s.toList := by decide
  have hlast : ∀ s ∈ ["peers"], '/' ∉ s.toList := by decide
  intro s hs
  rcases List.mem_append.mp hs with hs | hs
  · exact slash_not_mem_extend i hword s hs
  · exact hlast s hs

theorem slash_not_mem_segments (c : Call) : ∀ s ∈ c.segments, '/' ∉ s.toList := by
  have hmember (i p : Trace) : ∀ s ∈ member i p, '/' ∉ s.toList :=
    slash_not_mem_extend p (slash_not_mem_collection i)
  have hverb : ∀ s ∈ ["enable", "disable"], '/' ∉ s.toList := by decide
  intro s hs
  cases c with
  | create i n | list i => exact slash_not_mem_collection _ s hs
  | delete i p | get i p => exact hmember _ _ s hs
  | enable i p | disable i p =>
    rcases List.mem_append.mp hs with hs | hs
    · exact hmember _ _ s hs
    · rw [List.mem_singleton.mp hs]
      decide

theorem root_subset (base : Url) : root base ⊆ base.path := by
  intro s hs
  rw [root] at hs
  split_ifs at hs
  · cases hs
  · rw [withoutTrailingSlash] at hs
    split_ifs at hs
    · exact List.dropLast_subset _ hs
    · exact hs

theorem segmented_request (hb : ch.base.Segmented) (c : Call) : (c.request ch).url.Segmented where
  ne_nil := by
    rw [path_request]
    cases c <;> simp [Call.segments, collection, member, Trace.extend] <;> split <;> simp
  slash_not_mem := by
    intro s hs
    rw [path_request] at hs
    rcases List.mem_append.mp hs with hs | hs
    · exact hb.slash_not_mem s (root_subset _ hs)
    · exact slash_not_mem_segments c s hs

theorem query_request (ch : Channel) (c : Call) : (c.request ch).url.query = ch.base.query :=
  rfl

/-- Two requests on a channel are the same to the agent if their methods and the segments of
their calls are. -/
theorem line_eq_iff (hb : ch.base.Segmented) :
    (c.request ch).line = (d.request ch).line ↔ c.method = d.method ∧ c.segments = d.segments := by
  have hq : (c.request ch).url.query = (d.request ch).url.query := by
    rw [query_request, query_request]
  rw [Request.line, Request.line, Prod.mk.injEq]
  refine and_congr_right fun _ => ⟨fun h => ?_, fun h => ?_⟩
  · have hpath := path_eq_of_target (segmented_request hb c) (segmented_request hb d) hq h
    rw [path_request, path_request] at hpath
    exact List.append_cancel_left hpath
  · have hpath : (c.request ch).url.path = (d.request ch).url.path := by
      rw [path_request, path_request, h]
    rw [target_eq, target_eq, pathText, pathText, hpath, hq]

def Call.verb : Call → List String
  | .enable _ _ => ["enable"]
  | .disable _ _ => ["disable"]
  | .create _ _ | .delete _ _ | .get _ _ | .list _ => []

theorem segments_of_peer (h : c.peerId? = some peerId) :
    c.segments = member (traceOf c.interface) (traceOf peerId) ++ c.verb := by
  cases c <;> cases h <;> simp [Call.segments, Call.interface, Call.verb]

theorem segments_of_none (h : c.peerId? = none) :
    c.segments = collection (traceOf c.interface) := by
  cases c <;> first | rfl | cases h

/-- Of requests with one method, all those about peers have a verb, or none has. -/
theorem length_verb (h : c.method = d.method) (hc : c.peerId?.isSome) (hd : d.peerId?.isSome) :
    c.verb.length = d.verb.length := by
  cases c <;> cases d <;> simp_all [Call.method, Call.peerId?, Call.verb]

theorem member_injective (hi : i ≠ .nothing) (hp : p ≠ .nothing) (hi' : i' ≠ .nothing)
    (hp' : p' ≠ .nothing) (h : member i p = member i' p') : i = i' ∧ p = p' := by
  cases i <;> cases i' <;> cases p <;> cases p' <;>
    simp_all [member, collection, Trace.extend, segmentOf_injective.eq_iff]

theorem member_append_verb_ne (hi : i ≠ .nothing) (hp : p ≠ .nothing) (hi' : i' ≠ .nothing) :
    member i p ++ c.verb ≠ collection i' := by
  have hverb : ∀ verb ∈ ["enable", "disable"], member i p ++ [verb] ≠ collection i' := by
    intro verb hv h
    have hlast := (List.append_inj' h rfl).2
    rw [List.cons.inj hlast |>.1] at hv
    exact absurd hv (by decide)
  cases c with
  | enable | disable => exact hverb _ (by decide)
  | create | delete | get | list =>
    rw [Call.verb, List.append_nil]
    cases i <;> cases i' <;> cases p <;> simp_all [member, collection, Trace.extend]

theorem traceOf_eq_nothing_iff : traceOf name = .nothing ↔ name = "." ∨ name = ".." := by
  rw [traceOf]
  split_ifs with h <;> simp [h]

theorem mem_dots_iff : (∀ name ∈ names, traceOf name ≠ .nothing) ↔ "." ∉ names ∧ ".." ∉ names := by
  simp only [ne_eq, traceOf_eq_nothing_iff]
  constructor
  · intro h
    exact ⟨fun hd => h _ hd (.inl rfl), fun hd => h _ hd (.inr rfl)⟩
  · rintro ⟨h1, h2⟩ name hn (rfl | rfl)
    · exact h1 hn
    · exact h2 hn

/-- With names that leave something in a path, each something else, equal segments come from one
resource. -/
theorem resource_eq_of_segments (hn : ∀ name ∈ names, traceOf name ≠ .nothing)
    (hinj : names.InjOn traceOf) (hc : c.Within names) (hd : d.Within names)
    (hpeer : c.peerId?.isSome) (hm : c.method = d.method) (hs : c.segments = d.segments) :
    c.resource = d.resource := by
  obtain ⟨peerId, hpc⟩ := Option.isSome_iff_exists.mp hpeer
  have hic := hn _ hc.interface_mem
  have hid := hn _ hd.interface_mem
  have hp := hn _ (hc.peerId_mem _ hpc)
  rw [segments_of_peer hpc] at hs
  cases hpd : d.peerId? with
  | none =>
    rw [segments_of_none hpd] at hs
    exact absurd hs (member_append_verb_ne hic hp hid)
  | some peerId' =>
    have hp' := hn _ (hd.peerId_mem _ hpd)
    have hlen := length_verb hm hpeer (Option.isSome_iff_exists.mpr ⟨_, hpd⟩)
    rw [segments_of_peer hpd] at hs
    obtain ⟨hi, hp⟩ := member_injective hic hp hid hp' (List.append_inj' hs hlen).1
    rw [Call.resource, Call.resource, hpc, hpd,
      hinj hc.interface_mem hd.interface_mem hi,
      hinj (hc.peerId_mem _ hpc) (hd.peerId_mem _ hpd) hp]

/-- Requests about peers are told apart from all others exactly if none of the names is a dot
segment and no two of them leave the same in a path. -/
theorem tellsApart_iff (hb : ch.base.path = [""]) :
    ch.TellsApart names ↔ "." ∉ names ∧ ".." ∉ names ∧ names.InjOn traceOf := by
  have hseg : ch.base.Segmented := ⟨by simp [hb], by simp [hb]⟩
  rw [← and_assoc, ← mem_dots_iff]
  constructor
  · intro h
    have hget {s t : String} (hs : s ∈ names) (ht : t ∈ names) : (Call.get s t).Within names :=
      ⟨hs, fun _ hp => Option.some.inj hp ▸ ht⟩
    constructor
    · intro name hname htrace
      refine h (.get name name) (.list name) (hget hname hname) ⟨hname, by rintro _ ⟨⟩⟩ rfl
        (by simp [Call.resource, Call.peerId?]) ((line_eq_iff hseg).mpr ⟨rfl, ?_⟩)
      rw [Call.segments, Call.segments, htrace, member, Trace.extend]
    · intro s hs t ht hst
      by_contra hne
      refine h (.get s s) (.get s t) (hget hs hs) (hget hs ht) rfl ?_
        ((line_eq_iff hseg).mpr ⟨rfl, ?_⟩)
      · exact fun hres => hne (Option.some.inj (Prod.mk.inj hres).2)
      · rw [Call.segments, Call.segments, hst]
  · rintro ⟨hn, hinj⟩ c d hc hd hpeer hne hline
    obtain ⟨hm, hs⟩ := (line_eq_iff hseg).mp hline
    exact hne (resource_eq_of_segments hn hinj hc hd hpeer hm hs)

theorem tellsApart_slashed : (⟨1, loopback, none, false⟩ : Channel).base.path = [""] ∧
    (⟨1, loopback, none, false⟩ : Channel).TellsApart {"wg0", "ab/c+d=", "ab"} := by
  refine ⟨rfl, (tellsApart_iff rfl).mpr ⟨by simp, by simp, ?_⟩⟩
  intro s hs t ht h
  simp only [Set.mem_insert_iff, Set.mem_singleton_iff] at hs ht
  rcases hs with rfl | rfl | rfl <;> rcases ht with rfl | rfl | rfl <;>
    first | rfl | exact absurd h (by decide)

/-- The request for the peer with the id of one dot is the one for all the peers. -/
theorem exists_mistaken : ∃ (ch : Channel) (c d : Call),
    parseAddress .dotted "127.0.0.1:7443" false = .ok ch.base ∧ ch.base.path = [""] ∧
      c = .get "wg0" "." ∧ d = .list "wg0" ∧ (c.request ch).line = (d.request ch).line :=
  ⟨⟨1, loopback, none, false⟩, _, _, rfl, rfl, rfl, rfl, by decide⟩

end Agent

end PeerFleet
