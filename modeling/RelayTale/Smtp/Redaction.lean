import RelayTale.Smtp.Storable

/-!
# The password in recorded texts

`safe` replaces the password and its encoding, then cuts the text, drops NUL
bytes and repairs what is not UTF-8. The replacement shares no byte with the
password, so no occurrence can reach into it. The steps that follow can put an
occurrence together again: by the bytes that are dropped, or by the rune that
is put in for broken ones.
-/

namespace RelayTale.Smtp

open Text

/-- What is left of a text once the password and its encoding are replaced, the text is cut
and its NUL bytes are dropped. -/
def joined (text password : Bytes) : Bytes :=
  ((replaceAll (replaceAll text password redacted) (base64 password) redacted).take 4096).filter
    (· ≠ 0)

section Joined

variable {text password : Bytes} (nonempty : password ≠ [])

include nonempty

end Joined

end RelayTale.Smtp
