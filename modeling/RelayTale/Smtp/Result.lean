import RelayTale.Basic

/-!
# Vocabulary of one SMTP conversation

Statuses, protocol stages and error classes are constants of the program.
`Stage.text` and `ErrorClass.text` give their spelling, on which the prefix
tests of the decision policy depend.
-/

namespace RelayTale.Smtp

inductive Status
  | unset
  | accepted
  | temporary
  | permanent
  | unknown
  | partiallyAccepted
  | rcptAccepted
  deriving DecidableEq, Repr

def Status.text : Status → String
  | .unset => ""
  | .accepted => "SMTP_ACCEPTED"
  | .temporary => "TEMP_FAILED"
  | .permanent => "PERM_FAILED"
  | .unknown => "DELIVERY_UNKNOWN"
  | .partiallyAccepted => "PARTIAL_ACCEPTED"
  | .rcptAccepted => "RCPT_ACCEPTED"

inductive Stage
  | unset
  | connectError
  | tlsError
  | invalidEnvelope
  | invalidEml
  | dnsError
  | recorderError
  | smtpGreetingError
  | ehloError
  | starttlsError
  | authError
  | mailFromRejected
  | rcptRejected
  | rcptAccepted
  | databaseError
  | suppressionBlocked
  | expiryBlocked
  | dataRejected
  | dataWriteError
  | finalResponseError
  | finalResponseUnknown
  | finalResponse
  deriving DecidableEq, Repr

def Stage.text : Stage → String
  | .unset => ""
  | .connectError => "CONNECT_ERROR"
  | .tlsError => "TLS_ERROR"
  | .invalidEnvelope => "INVALID_ENVELOPE"
  | .invalidEml => "INVALID_EML"
  | .dnsError => "DNS_ERROR"
  | .recorderError => "RECORDER_ERROR"
  | .smtpGreetingError => "SMTP_GREETING_ERROR"
  | .ehloError => "EHLO_ERROR"
  | .starttlsError => "STARTTLS_ERROR"
  | .authError => "AUTH_ERROR"
  | .mailFromRejected => "MAIL_FROM_REJECTED"
  | .rcptRejected => "RCPT_REJECTED"
  | .rcptAccepted => "RCPT_ACCEPTED"
  | .databaseError => "DATABASE_ERROR"
  | .suppressionBlocked => "SUPPRESSION_BLOCKED"
  | .expiryBlocked => "EXPIRY_BLOCKED"
  | .dataRejected => "DATA_REJECTED"
  | .dataWriteError => "DATA_WRITE_ERROR"
  | .finalResponseError => "FINAL_RESPONSE_ERROR"
  | .finalResponseUnknown => "FINAL_RESPONSE_UNKNOWN"
  | .finalResponse => "FINAL_RESPONSE"

/-- The values of `Result.ErrorClass`: a stage, a stage with `_TIMEOUT`
appended, or one of the classes named on their own. -/
inductive ErrorClass
  | unset
  | stage (reached : Stage)
  | timeout (reached : Stage)
  | authConnectionError
  | connectRefused
  | connectTimeout
  | finalResponseTimeout
  | connectionReset
  | credentialDecryptionError
  | localStorageError
  deriving DecidableEq, Repr

def ErrorClass.text : ErrorClass → String
  | .unset => ""
  | .stage reached => reached.text
  | .timeout reached => reached.text ++ "_TIMEOUT"
  | .authConnectionError => "AUTH_CONNECTION_ERROR"
  | .connectRefused => "CONNECT_REFUSED"
  | .connectTimeout => "CONNECT_TIMEOUT"
  | .finalResponseTimeout => "FINAL_RESPONSE_TIMEOUT"
  | .connectionReset => "CONNECTION_RESET"
  | .credentialDecryptionError => "CREDENTIAL_DECRYPTION_ERROR"
  | .localStorageError => "LOCAL_STORAGE_ERROR"

end RelayTale.Smtp
