import Xmppd.Escaping
import Xmppd.GoXml

/-!
# The escaping helpers of the Go server

Six packages have a helper for attribute values and two have one for text, each of
them three replacements in the whole string. The serializer replaces the quotation
mark after `<`, the handlers before it. An ampersand that is there is replaced
first, so the entities that are put in stay as they are.
-/
namespace Xmppd.GoEscaping
open CStrings Escaping

def amp : Rule Char := ('&', "&amp;")
def lt : Rule Char := ('<', "&lt;")
def gt : Rule Char := ('>', "&gt;")
def apos : Rule Char := ('\'', "&apos;")

/-! ## The helpers -/

def Session.escAttr (s : Str) : Str := passes [amp, apos, lt] s

def Roster.escAttr (s : Str) : Str := passes [amp, apos, lt] s

def Presence.escAttr (s : Str) : Str := passes [amp, apos, lt] s

def Disco.escAttr (s : Str) : Str := passes [amp, apos, lt] s

def Stanza.escAttr (s : Str) : Str := passes [amp, apos, lt] s

def Stanza.escText (s : Str) : Str := passes [amp, lt, gt] s

/-- The helper of the serializer replaces in another order. -/
theorem escapeAttr_passes (s : Str) : GoXml.escapeAttr s = passes [amp, lt, apos] s := rfl

theorem escapeText_passes (s : Str) : GoXml.escapeText s = passes [amp, lt, gt] s := rfl

/-! ## What they give -/

/-- `t` is what escaping gives for `s`: every character is replaced independently of the
others, every ampersand begins an entity, and the entities read back give `s`. -/
structure Escaped (rules : List (Rule Char)) (s t : Str) : Prop where
  independent : t = s.flatMap (subst rules)
  entities : ∀ i, t[i]? = some '&' → ∃ r ∈ rules, r.2 <+: t.drop i
  decoded : decode rules t = s

theorem escaped_passes {rules : List (Rule Char)} (hs : Settled rules) (hr : Readable '&' rules) (s : Str) :
    Escaped rules s (passes rules s) := by
  rw [passes_eq hs]
  exact ⟨rfl, fun _ hi => hr.mark_begins s hi, hr.decode_flatMap s⟩

theorem settled_attr : Settled [amp, lt, apos] := by
  unfold Settled
  decide

theorem settled_handlers : Settled [amp, apos, lt] := by
  unfold Settled
  decide

theorem settled_text : Settled [amp, lt, gt] := by
  unfold Settled
  decide

theorem readable_attr : Readable '&' [amp, lt, apos] := ⟨by decide, by decide, by decide⟩

theorem readable_text : Readable '&' [amp, lt, gt] := ⟨by decide, by decide, by decide⟩

/-- The two orders give the same. -/
theorem handlers_eq (s : Str) : passes [amp, apos, lt] s = GoXml.escapeAttr s := by
  rw [escapeAttr_passes]
  exact passes_perm ((List.Perm.swap lt apos []).cons amp) (by decide) settled_handlers settled_attr s

/-- All helpers of a kind give the same, which has none of the characters that would end
the value or open a tag, and can be read back. -/
theorem helpers_agree (s : Str) :
    (∀ escAttr ∈ [Session.escAttr, Roster.escAttr, Presence.escAttr, Stanza.escAttr, Disco.escAttr],
      escAttr s = GoXml.escapeAttr s) ∧
    Escaped [amp, lt, apos] s (GoXml.escapeAttr s) ∧ '<' ∉ GoXml.escapeAttr s ∧ '\'' ∉ GoXml.escapeAttr s ∧
    Stanza.escText s = GoXml.escapeText s ∧
    Escaped [amp, lt, gt] s (GoXml.escapeText s) ∧ '<' ∉ GoXml.escapeText s ∧ '>' ∉ GoXml.escapeText s := by
  have hattr : GoXml.escapeAttr s = s.flatMap (subst [amp, lt, apos]) := passes_eq settled_attr s
  have htext : GoXml.escapeText s = s.flatMap (subst [amp, lt, gt]) := passes_eq settled_text s
  refine ⟨?_, escaped_passes settled_attr readable_attr s, ?_, ?_, rfl, escaped_passes settled_text readable_text s, ?_, ?_⟩
  · intro escAttr h
    simp only [List.mem_cons, List.not_mem_nil, or_false] at h
    rcases h with rfl | rfl | rfl | rfl | rfl
    all_goals exact handlers_eq s
  · rw [hattr]
    exact not_mem_flatMap (by decide) (by decide) s
  · rw [hattr]
    exact not_mem_flatMap (by decide) (by decide) s
  · rw [htext]
    exact not_mem_flatMap (by decide) (by decide) s
  · rw [htext]
    exact not_mem_flatMap (by decide) (by decide) s

example : Session.escAttr "a&lt;b<'" = "a&amp;lt;b&lt;&apos;".toList := by decide

end Xmppd.GoEscaping
