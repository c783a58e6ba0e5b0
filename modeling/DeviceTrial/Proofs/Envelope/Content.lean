import DeviceTrial.Envelope.Build

namespace DeviceTrial

def Scalar.content : Scalar → Content
  | bool v => .bool v
  | signed size v => .signed size v
  | unsigned size v => .unsigned size v
  | float size v => .float size v
  | text _ v _ => .text v
  | bytes _ v _ => .bytes v
  | null => .null

namespace Element

def content : Element → Content
  | leaf _ s => s.content
  | node _ _ children => .children children

theorem supports_kind (e : Element) : e.kind.supports e.width = true := by
  cases e with
  | node tag shape children => cases shape <;> rfl
  | leaf tag s =>
    cases s with
    | bool | null => rfl
    | signed size | unsigned size | text size | bytes size => cases size <;> rfl
    | float size => cases size <;> rfl

theorem build_of_scalar? {kind : Kind} {width : Nat} {content : Content} {s : Scalar}
    (supported : kind.supports width = true) (plain : kind.shape? = none)
    (h : scalar? kind width content = some s) (tag : Tag) :
    build kind width tag content = .ok (leaf tag s) := by
  unfold build
  simp only [supported, plain, h]
  rfl

theorem scalar?_content (s : Scalar) : scalar? s.kind s.width s.content = some s := by
  cases s with
  | bool | null => rfl
  | signed size | unsigned size => exact if_pos rfl
  | float size => exact if_pos rfl
  | text size v fits =>
    rw [Scalar.kind, Scalar.content, scalar?, sized?, Scalar.width, WordSize.ofBytes?_bytes]
    exact dif_pos fits
  | bytes size v fits =>
    rw [Scalar.kind, Scalar.content, scalar?, sized?, Scalar.width, WordSize.ofBytes?_bytes]
    exact dif_pos fits

theorem build_content (e : Element) : build e.kind e.width e.tag e.content = .ok e := by
  have hsupported := e.supports_kind
  cases e with
  | node tag shape children => cases shape <;> rfl
  | leaf tag s =>
    have hplain : s.kind.shape? = none := by cases s <;> rfl
    exact build_of_scalar? hsupported hplain (scalar?_content s) tag

end Element

end DeviceTrial
