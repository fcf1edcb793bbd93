import PushMesh.Proofs.Membership
import PushMesh.Proofs.Text

/-!
# Ways to spell an address

The endpoint of an address is its host and port in lower case, whatever is written around them: blanks,
slashes at the end, and a scheme in lower case. A scheme with a capital letter is not taken for one and
stays in front of the host (`endpointKey_spelling`). So two spellings of one host are the same endpoint
just if they leave the same of their schemes, and then at most one of them is a peer
(`spelled_endpoints`).
-/

namespace PushMesh

namespace Node

variable {h : String} {p cs : List Char} {n : Node}

/-! ## Schemes -/

/-- The schemes that an address can name. -/
def schemes : List (List Char) := ["http://".toList, "https://".toList]

/-- A scheme in front of an address is taken away. -/
theorem withoutScheme_append (hp : p ∈ schemes) (cs : List Char) : withoutScheme (p ++ cs) = cs := by
  simp only [schemes, List.mem_cons, List.not_mem_nil, or_false] at hp
  rcases hp with rfl | rfl
  · rw [withoutScheme, Text.afterPrefix?_append]
  · have hnot : Text.afterPrefix? "http://".toList ("https://".toList ++ cs) = none := rfl
    rw [withoutScheme, hnot, Text.afterPrefix?_append]
    rfl

/-- An address without a scheme stays as it is. -/
theorem withoutScheme_eq_self (hcs : ∀ p ∈ schemes, ¬p <+: cs) : withoutScheme cs = cs := by
  have hhttp := Text.afterPrefix?_eq_none_iff.2 (hcs "http://".toList (by decide))
  have hhttps := Text.afterPrefix?_eq_none_iff.2 (hcs "https://".toList (by decide))
  rw [withoutScheme, hhttp, hhttps]
  rfl

/-- Taking a scheme away adds no character. -/
theorem withoutScheme_sublist (cs : List Char) : (withoutScheme cs).Sublist cs := by
  by_cases hcs : ∃ p ∈ schemes, p <+: cs
  · obtain ⟨p, hp, rest, rfl⟩ := hcs
    rw [withoutScheme_append hp]
    exact List.sublist_append_right p rest
  · rw [withoutScheme_eq_self fun p hp hprefix => hcs ⟨p, hp, hprefix⟩]

/-- No scheme is the start of the other one, whatever follows that. -/
theorem eq_of_scheme_prefix {q : List Char} (hp : p ∈ schemes) (hq : q ∈ schemes) (h : p <+: q ++ cs) :
    p = q := by
  obtain ⟨rest, hrest⟩ := h
  simp only [schemes, List.mem_cons, List.not_mem_nil, or_false] at hp hq
  rcases hp with rfl | rfl <;> rcases hq with rfl | rfl
  · rfl
  · simp at hrest
  · simp at hrest
  · rfl

/-- The schemes are in lower case. -/
theorem map_lowerAscii_scheme : ∀ p ∈ schemes, p.map Text.lowerAscii = p := by
  decide

/-- A scheme is a name and two slashes. -/
theorem exists_of_mem_schemes (hp : p ∈ schemes) :
    ∃ name, p = name ++ ['/', '/'] ∧ '/' ∉ name ∧
      (String.ofList (name.map Text.lowerAscii) = "http:" ∨
        String.ofList (name.map Text.lowerAscii) = "https:") := by
  simp only [schemes, List.mem_cons, List.not_mem_nil, or_false] at hp
  rcases hp with rfl | rfl
  · exact ⟨"http:".toList, by decide⟩
  · exact ⟨"https:".toList, by decide⟩

/-! ## Spellings -/

/-- A host with its port. -/
structure IsHost (h : String) : Prop where
  nonempty : h ≠ ""
  noBlank : h.toList.any Text.isBlank = false
  noSlash : '/' ∉ h.toList
  /-- Nor is it a scheme itself, but for the slashes. -/
  noScheme : Text.lowered h ≠ "http:" ∧ Text.lowered h ≠ "https:"

/-- A way to write the address of a host. -/
structure Spelling (h : String) where
  before : List Char
  scheme : List Char
  host : List Char
  slashes : Nat
  after : List Char
  blank_before : before.all Text.isBlank = true
  blank_after : after.all Text.isBlank = true
  /-- There is no scheme, or one in any case. -/
  scheme_mem : scheme.map Text.lowerAscii ∈ [] :: schemes
  /-- The host is in any case, too. -/
  host_eq : host.map Text.lowerAscii = h.toList.map Text.lowerAscii

namespace Spelling

/-- What stands between the blanks. -/
def core (s : Spelling h) : List Char :=
  s.scheme ++ (s.host ++ List.replicate s.slashes '/')

def address (s : Spelling h) : String :=
  String.ofList (s.before ++ s.core ++ s.after)

/-- Whether the scheme is in lower case, if there is one. -/
def IsLower (s : Spelling h) : Prop :=
  s.scheme.map Text.lowerAscii = s.scheme

instance (s : Spelling h) : Decidable s.IsLower :=
  inferInstanceAs (Decidable (_ = _))

/-- What is left of the scheme: nothing if it is in lower case. -/
def left (s : Spelling h) : List Char :=
  if s.IsLower then [] else s.scheme

/-- What the endpoint shows of the scheme. -/
def shown (s : Spelling h) : String :=
  Text.lowered (String.ofList s.left)

/-- A spelling of a host has no blank inside it. -/
theorem noBlank_core (hh : IsHost h) (s : Spelling h) : s.core.any Text.isBlank = false := by
  have hlower := Text.any_isBlank_map_lowerAscii
  have hscheme : s.scheme.any Text.isBlank = false := by
    have hnone : ∀ q ∈ [] :: schemes, q.any Text.isBlank = false := by decide
    rw [← hlower, hnone _ s.scheme_mem]
  have hhost : s.host.any Text.isBlank = false := by rw [← hlower, s.host_eq, hlower, hh.noBlank]
  have hslashes : (List.replicate s.slashes '/').any Text.isBlank = false := by
    refine List.any_eq_false.2 fun c hc => ?_
    rw [List.eq_of_mem_replicate hc]
    exact Bool.false_ne_true
  rw [core, List.any_append, List.any_append, hscheme, hhost, hslashes]
  rfl

/-- The host of a spelling has no slash. -/
theorem noSlash_host (hh : IsHost h) (s : Spelling h) : '/' ∉ s.host := by
  intro hslash
  have hlower : '/' ∈ h.toList.map Text.lowerAscii := by
    rw [← s.host_eq]
    exact List.mem_map.2 ⟨'/', hslash, rfl⟩
  obtain ⟨d, hd, heq⟩ := List.mem_map.1 hlower
  exact hh.noSlash (Text.lowerAscii_eq_slash_iff.1 heq ▸ hd)

/-- Trimming a spelling leaves its core. -/
theorem trim_address (hh : IsHost h) (s : Spelling h) : Text.trim s.address.toList = s.core := by
  rw [address, String.toList_ofList, Text.trim_append s.blank_before s.blank_after (s.noBlank_core hh)]

/-- A host is not taken for a scheme, nor with slashes behind it. -/
theorem not_scheme_prefix_host (hh : IsHost h) (s : Spelling h) (hp : p ∈ schemes) :
    ¬p <+: s.host ++ List.replicate s.slashes '/' := by
  rintro ⟨rest, hrest⟩
  obtain ⟨name, rfl, hname, htext⟩ := exists_of_mem_schemes hp
  rw [List.append_assoc] at hrest
  -- up to the first slash there is the name on one side and the host on the other
  have hhost : s.host = name := by
    rcases List.append_eq_append_iff.1 hrest with ⟨more, hmore, htail⟩ | ⟨more, hmore, htail⟩
    · cases more with
      | nil => rw [hmore, List.append_nil]
      | cons c more =>
        obtain rfl : '/' = c := (List.cons.inj htail).1
        exact absurd (hmore ▸ List.mem_append_right _ List.mem_cons_self) (s.noSlash_host hh)
    · cases more with
      | nil => rw [hmore, List.append_nil]
      | cons c more =>
        have hmem : c ∈ List.replicate s.slashes '/' := by
          rw [htail]
          exact List.mem_cons_self
        obtain rfl := List.eq_of_mem_replicate hmem
        exact absurd (hmore ▸ List.mem_append_right _ List.mem_cons_self) hname
  rw [← hhost, s.host_eq] at htext
  exact htext.elim hh.noScheme.1 hh.noScheme.2

/-- What stands in front of the host is taken for a scheme just if it is one in lower case. -/
theorem withoutScheme_core (hh : IsHost h) (s : Spelling h) :
    withoutScheme s.core = s.left ++ (s.host ++ List.replicate s.slashes '/') := by
  -- a scheme in lower case is taken away, any other one is left where it is
  by_cases hlower : s.IsLower
  · have hmem := s.scheme_mem
    rw [show s.scheme.map Text.lowerAscii = s.scheme from hlower] at hmem
    rw [left, if_pos hlower, core, List.nil_append]
    rcases List.mem_cons.1 hmem with hnone | hscheme
    · rw [hnone, List.nil_append, withoutScheme_eq_self fun p => s.not_scheme_prefix_host hh]
    · exact withoutScheme_append hscheme _
  · rw [left, if_neg hlower]
    refine withoutScheme_eq_self fun p hp hprefix => hlower ?_
    unfold IsLower
    have hlowered := hprefix.map Text.lowerAscii
    rw [core, List.map_append, map_lowerAscii_scheme p hp] at hlowered
    rcases List.mem_cons.1 s.scheme_mem with hnone | hscheme
    · rw [List.map_eq_nil_iff.1 hnone]
      rfl
    · -- the scheme would have to be the one that it is in lower case
      have heq : p = s.scheme.map Text.lowerAscii := eq_of_scheme_prefix hp hscheme hlowered
      have hlength : p.length = s.scheme.length := by rw [heq, List.length_map]
      have hsame : p = s.scheme :=
        (List.prefix_of_prefix_length_le hprefix (List.prefix_append ..) (Nat.le_of_eq hlength)).eq_of_length
          hlength
      rw [← heq, hsame]

/-- No scheme is shown iff the scheme is written in lower case. -/
theorem shown_eq_empty_iff {s : Spelling h} : s.shown = "" ↔ s.IsLower := by
  rw [shown, Text.lowered, String.toList_ofList, left]
  split
  · next hlower => exact iff_of_true rfl hlower
  · next hlower =>
    refine iff_of_false (fun hempty => hlower ?_) hlower
    have hnil : s.scheme = [] := by simpa using hempty
    rw [IsLower, hnil]
    rfl

end Spelling

/-- The endpoint of a spelling is what it shows of the scheme, and the host in lower case. -/
theorem endpointKey_spelling (hh : IsHost h) (s : Spelling h) (hn : n.address = s.address) :
    n.endpointKey = s.shown ++ Text.lowered h := by
  have hslashes : ∀ c ∈ List.replicate s.slashes '/', decide (c = '/') = true :=
    fun c hc => decide_eq_true (List.eq_of_mem_replicate hc)
  have hhost : s.host ≠ [] := by
    intro hnil
    have hempty : h.toList.map Text.lowerAscii = [] := by rw [← s.host_eq, hnil]; rfl
    exact hh.nonempty (String.toList_eq_nil_iff.1 (List.map_eq_nil_iff.1 hempty))
  have hend : Text.dropEndWhile (· = '/') (s.left ++ s.host) = s.left ++ s.host := by
    refine Text.dropEndWhile_eq_self_iff.2 fun hne => ?_
    rw [List.getLast_append_of_ne_nil _ hhost, decide_eq_true_eq]
    exact fun hlast => s.noSlash_host hh (hlast ▸ List.getLast_mem hhost)
  rw [endpointKey, hn, s.trim_address hh, s.withoutScheme_core hh, ← List.append_assoc,
    Text.dropEndWhile_append hslashes, hend, List.map_append, s.host_eq, Spelling.shown, Text.lowered,
    Text.lowered, String.toList_ofList, String.ofList_append]

/-- **Spellings of one host.** The endpoint of each is the host in lower case, with the scheme in front of it
if that has a letter in upper case. So two nodes with such addresses are at the same endpoint just if the
endpoints show the same of the schemes, and no two of those are peers of a node. -/
theorem spelled_endpoints (hh : IsHost h) :
    (∀ (n : Node) (s : Spelling h), n.address = s.address →
      n.endpointKey = s.shown ++ Text.lowered h ∧ (s.shown = "" ↔ s.IsLower)) ∧
    (∀ (m n : Node) (s t : Spelling h), m.address = s.address → n.address = t.address →
      (m.sameEndpoint n = true ↔ s.shown = t.shown)) ∧
    ∀ (me : Node) (candidates : List Node), (Membership.remotePeers me candidates).Pairwise fun p q =>
      ∀ s t : Spelling h, p.address = s.address → q.address = t.address → s.shown ≠ t.shown := by
  have hkey : ∀ {n : Node} (s : Spelling h), n.address = s.address →
      n.endpointKey = s.shown ++ Text.lowered h := fun s hn => endpointKey_spelling hh s hn
  refine ⟨fun n s hn => ⟨hkey s hn, s.shown_eq_empty_iff⟩, fun m n s t hm hn => ?_, fun me candidates => ?_⟩
  · rw [sameEndpoint, beq_iff_eq, hkey s hm, hkey t hn, String.append_left_inj]
  · rw [Membership.remotePeers_eq]
    refine (Membership.pairwise_added me [] candidates).imp fun {p q} hapart s t hp hq hsame => ?_
    refine hapart.2 ?_
    rw [hkey s hp, hkey t hq, hsame]

/-- A spelling with blanks, a scheme, capital letters and slashes. -/
def padded : Spelling "node-a:8081" where
  before := [' ', '\t']
  scheme := "https://".toList
  host := "Node-A:8081".toList
  slashes := 2
  after := ['\n']
  blank_before := by decide
  blank_after := by decide
  scheme_mem := by decide
  host_eq := by decide

/-- A spelling with a scheme in capital letters. -/
def shouted : Spelling "node-a:8081" where
  before := []
  scheme := "HTTP://".toList
  host := "node-a:8081".toList
  slashes := 0
  after := []
  blank_before := by decide
  blank_after := by decide
  scheme_mem := by decide
  host_eq := by decide

/-- Of two such addresses the first one has the endpoint of the host. -/
theorem spelled_endpoints_padded :
    IsHost "node-a:8081" ∧ (peer "b" padded.address).address = " \thttps://Node-A:8081//\n" ∧
      (peer "b" padded.address).endpointKey = padded.shown ++ Text.lowered "node-a:8081" ∧
      padded.shown = "" ∧
      ((peer "b" padded.address).sameEndpoint (peer "c" shouted.address) = true ↔
        padded.shown = shouted.shown) := by
  have hh : IsHost "node-a:8081" := ⟨by decide, by decide, by decide, by decide⟩
  obtain ⟨hkey, hsame, -⟩ := spelled_endpoints hh
  obtain ⟨hpadded, hshown⟩ := hkey (peer "b" padded.address) padded rfl
  exact ⟨hh, by decide, hpadded, hshown.2 (by decide), hsame _ _ padded shouted rfl rfl⟩

/-- The other one has a different endpoint, and is a peer beside the host itself. -/
theorem endpointKey_shouted :
    IsHost "node-a:8081" ∧ (peer "c" shouted.address).endpointKey ≠ Text.lowered "node-a:8081" ∧
      (peer "b" "node-a:8081").sameEndpoint (peer "c" shouted.address) = false ∧
      Membership.remotePeers ⟨"a", "a:1", true⟩ [peer "b" "node-a:8081", peer "c" shouted.address] =
        [peer "b" "node-a:8081", peer "c" shouted.address] := by
  refine ⟨⟨by decide, by decide, by decide, by decide⟩, ?_⟩
  decide

end Node

end PushMesh
