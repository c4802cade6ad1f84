import ByosMail.Backup

-- The tables a backup reads, as Postgres describes them, and those of infra/postgres/init.
namespace ByosMail.Backup

inductive PgType where
  | uuid | text | varchar | bytea | boolean | smallint | integer | bigint | timestamptz | textArray | jsonb | inet
  deriving DecidableEq

inductive PgValue where
  | null
  | uuid (b : Bytes)
  | text (s : String)
  | bytea (b : Bytes)
  | boolean (b : Bool)
  | integer (n : Int)
  | timestamptz (microseconds : Int)
  | textArray (items : List (Option String))
  | jsonb (text : String)
  | inet (text : String)
  deriving DecidableEq

def PgType.Holds : PgType → PgValue → Prop
  | .uuid,.uuid b => b.length = 16
  | .text,.text _ | .bytea,.bytea _ | .boolean,.boolean _ | .timestamptz,.timestamptz _ | .textArray,.textArray _ => True
  | .jsonb,.jsonb _ | .inet,.inet _ => True
  | .varchar,.text s => s.length ≤ 32
  | .smallint,.integer n => -32768 ≤ n ∧ n < 32768
  | .integer,.integer n => -2147483648 ≤ n ∧ n < 2147483648
  | .bigint,.integer n => -9223372036854775808 ≤ n ∧ n < 9223372036854775808
  | _,_ => False

structure Column where
  name : String
  type : PgType
  notNull : Bool
  deriving DecidableEq

abbrev Record := List (String × PgValue)

-- A row of a table has its columns, in their order.
def Column.Admits (c : Column) (cell : String × PgValue) : Prop :=
  cell.1 = c.name ∧ (cell.2 = .null ∧ c.notNull = false ∨ c.type.Holds cell.2)

-- The tables there are; each of DefaultTables has the primary key id.
structure Schema where
  columns : String → Option (List Column)
  named : ∀ table, ∀ cols ∈ columns table, (cols.map Column.name).Nodup
  keyed : ∀ table ∈ DefaultTables, ∀ cols ∈ columns table, ⟨"id",.uuid,true⟩ ∈ cols

structure Database (schema : Schema) where
  rows : String → List Record
  typed : ∀ table, ∀ cols ∈ schema.columns table, ∀ record ∈ rows table, List.Forall₂ Column.Admits cols record

def req (name : String) (type : PgType) : Column := ⟨name,type,true⟩

def opt (name : String) (type : PgType) : Column := ⟨name,type,false⟩

-- 001_init.sql and the later files, columns in the order they are added.
def initTables : List (String × List Column) := [
  ("organizations",[req "id" .uuid,req "name" .text,req "org_recovery_pk" .bytea,opt "default_storage_connection_id" .uuid,
    req "created_at" .timestamptz,req "updated_at" .timestamptz,req "plan" .text,req "status" .text,
    req "seat_count" .integer,req "billing_cycle" .text,req "max_domains" .integer,req "max_aliases" .integer]),
  ("users",[req "id" .uuid,req "org_id" .uuid,req "email" .text,opt "display_name" .text,opt "password_hash" .text,
    req "is_active" .boolean,req "created_at" .timestamptz,req "updated_at" .timestamptz,opt "recovery_auth_pk" .bytea,
    opt "recovery_auth_version" .smallint,req "role" .text,req "status" .text,req "two_factor_enabled" .boolean,
    opt "totp_secret" .text,opt "recovery_email" .text,opt "recovery_phone" .text]),
  ("domains",[req "id" .uuid,req "org_id" .uuid,req "name" .text,req "is_verified" .boolean,opt "verification_token" .text,
    req "dkim_selector" .text,opt "dkim_private_key_enc" .bytea,opt "dkim_public_key" .text,req "created_at" .timestamptz]),
  ("root_secrets",[req "id" .uuid,req "version" .integer,opt "root_secret_wrapped" .bytea,req "created_at" .timestamptz,
    opt "revoked_at" .timestamptz]),
  ("mailboxes",[req "id" .uuid,req "org_id" .uuid,opt "user_id" .uuid,req "domain_id" .uuid,req "local_part" .text,
    req "mode" .text,opt "root_secret_id" .uuid,opt "mailbox_sk_wrapped" .bytea,req "mailbox_sk_version" .integer,
    opt "mailbox_pk" .bytea,req "is_active" .boolean,req "created_at" .timestamptz,req "updated_at" .timestamptz,
    req "plan" .text,req "status" .text,opt "wrapped_sk_user" .text,opt "wrapped_sk_org" .text,
    opt "previous_wrapped_sk_user" .text,opt "previous_key_archived_at" .timestamptz]),
  ("aliases",[req "id" .uuid,req "mailbox_id" .uuid,req "local_part" .text,req "domain_id" .uuid,req "is_active" .boolean,
    req "created_at" .timestamptz]),
  ("devices",[req "id" .uuid,req "user_id" .uuid,req "device_name" .text,req "device_pk" .bytea,
    req "created_at" .timestamptz]),
  ("device_mailbox_access",[req "id" .uuid,req "device_id" .uuid,req "mailbox_id" .uuid,req "wrapped_root_secret" .bytea,
    req "is_active" .boolean,req "granted_at" .timestamptz,opt "revoked_at" .timestamptz]),
  ("org_recovery_principals",[req "id" .uuid,req "user_id" .uuid,req "org_id" .uuid,req "principal_name" .text,
    req "kdf_algorithm" .text,req "kdf_version" .integer,req "kdf_salt" .bytea,req "kdf_memory" .integer,
    req "kdf_iterations" .integer,req "kdf_parallelism" .integer,req "org_recovery_sk_encrypted" .bytea,
    req "org_recovery_pk" .bytea,req "is_active" .boolean,req "created_at" .timestamptz,opt "deactivated_at" .timestamptz]),
  ("storage_connections",[req "id" .uuid,req "org_id" .uuid,req "provider_type" .text,req "bucket_name" .text,
    opt "endpoint" .text,opt "region" .text,req "credentials_enc" .bytea,req "is_active" .boolean,
    req "created_at" .timestamptz,req "updated_at" .timestamptz,opt "provider" .text,req "config" .jsonb,req "status" .text,
    opt "last_checked" .timestamptz,req "used_bytes" .bigint,opt "error_message" .text,req "encrypted" .boolean,
    opt "mailbox_id" .uuid]),
  ("mailbox_storage",[req "id" .uuid,req "mailbox_id" .uuid,req "storage_connection_id" .uuid,req "object_prefix" .text,
    req "status" .text,req "created_at" .timestamptz,req "updated_at" .timestamptz]),
  ("message_metadata",[req "id" .uuid,req "mailbox_id" .uuid,req "domain_id" .uuid,req "message_seq" .bigint,
    req "direction" .text,req "delivery_identity" .bytea,req "sender" .text,req "recipients" .textArray,
    req "has_attachments" .boolean,req "attachment_count" .integer,req "storage_object_id" .text,
    req "content_key_hpke_wrapped" .bytea,req "mailbox_sk_version" .integer,req "encryption_version" .integer,
    req "encryption_iv" .bytea,req "aad_version" .smallint,req "bundle_hash" .bytea,req "received_at" .timestamptz,
    opt "sent_at" .timestamptz,req "status" .text,req "folder" .varchar,opt "folder_id" .uuid,req "is_read" .boolean]),
  ("attachments",[req "id" .uuid,req "mailbox_id" .uuid,opt "message_id" .text,req "filename" .text,
    req "content_type" .text,req "size_bytes" .bigint,req "storage_key" .text,req "encrypted" .boolean,
    req "created_at" .timestamptz]),
  ("rate_limits",[req "id" .uuid,req "plan_name" .text,req "scope" .text,req "time_window" .text,
    req "limit_value" .integer]),
  ("audit_log",[req "id" .uuid,req "org_id" .uuid,opt "user_id" .uuid,req "action" .text,req "resource_type" .text,
    opt "resource_id" .uuid,opt "details" .jsonb,opt "ip_address" .inet,req "created_at" .timestamptz]),
  ("search_tokens",[req "id" .uuid,req "mailbox_id" .uuid,req "message_id" .text,req "token" .bytea,
    req "created_at" .timestamptz]),
  ("bridge_credentials",[req "id" .uuid,req "mailbox_id" .uuid,req "label" .text,req "token_hash" .bytea,
    req "created_at" .timestamptz,opt "last_used_at" .timestamptz,opt "revoked_at" .timestamptz]),
  ("contacts",[req "id" .uuid,req "mailbox_id" .uuid,req "encrypted_envelope" .bytea,req "version" .integer,
    req "created_at" .timestamptz,req "updated_at" .timestamptz]),
  ("scheduled_messages",[req "id" .uuid,req "mailbox_id" .uuid,req "domain_id" .uuid,req "recipient" .text,
    req "encrypted_message" .bytea,req "send_token_hpke_wrapped" .bytea,req "send_token_hash" .bytea,
    req "scheduled_at" .timestamptz,req "status" .text,req "delivery_id" .uuid,req "created_at" .timestamptz,
    opt "sent_at" .timestamptz,req "expires_at" .timestamptz,opt "reservation_id" .uuid,opt "outbox_seq" .bigint,
    opt "encryption_version" .integer,opt "aad_version" .smallint,opt "encryption_iv" .bytea,
    opt "retry_after" .timestamptz]),
  ("outbound_queue",[req "id" .uuid,req "delivery_id" .uuid,req "mailbox_id" .uuid,req "domain_id" .uuid,
    req "recipient" .text,req "encrypted_message" .bytea,req "send_token_hpke_wrapped" .bytea,req "status" .text,
    req "attempts" .integer,req "max_attempts" .integer,opt "last_attempt_at" .timestamptz,
    req "next_attempt_at" .timestamptz,req "created_at" .timestamptz,opt "delivered_at" .timestamptz,
    opt "failed_at" .timestamptz,req "expires_at" .timestamptz,opt "outbox_seq" .bigint,opt "encryption_version" .integer,
    opt "aad_version" .smallint,opt "encryption_iv" .bytea,opt "reservation_id" .uuid]),
  ("drafts",[req "id" .uuid,req "mailbox_id" .uuid,opt "subject" .text,req "encrypted_envelope" .bytea,
    req "created_at" .timestamptz,req "updated_at" .timestamptz,req "recipient" .text,req "version" .integer]),
  ("delivery_log",[req "id" .uuid,req "delivery_id" .uuid,req "direction" .text,opt "mailbox_id" .uuid,
    opt "domain_id" .uuid,opt "sender" .text,opt "recipient" .text,req "status" .text,opt "smtp_code" .integer,
    opt "smtp_message" .text,req "created_at" .timestamptz])
]

theorem initTables_named : ∀ entry ∈ initTables, (entry.2.map Column.name).Nodup := by decide +kernel

theorem initTables_keyed : ∀ entry ∈ initTables, ⟨"id",.uuid,true⟩ ∈ entry.2 := by decide +kernel

theorem initTables_lookup (found : cols ∈ initTables.lookup table) : (table,cols) ∈ initTables := by
  obtain ⟨before,after,whole,-⟩ := List.lookup_eq_some_iff.mp found
  rw [whole]
  simp

def initSchema : Schema where
  columns table := initTables.lookup table
  named _ _ found := initTables_named _ (initTables_lookup found)
  keyed _ _ _ found := initTables_keyed _ (initTables_lookup found)

end ByosMail.Backup
