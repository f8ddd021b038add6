import SqrzlEmulator.Auth.ListConditions
import SqrzlEmulator.Auth.Presigned
import SqrzlEmulator.Auth.Wildcards
import SqrzlEmulator.Azure.BlockLists
import SqrzlEmulator.Azure.ContainerModes
import SqrzlEmulator.Azure.Purge
import SqrzlEmulator.Azure.Snapshots
import SqrzlEmulator.Azure.Worm
import SqrzlEmulator.Buckets.Activation
import SqrzlEmulator.Gcs.ObjectListing
import SqrzlEmulator.Gcs.Retention
import SqrzlEmulator.Lifecycle.Expiry
import SqrzlEmulator.Mail.Names
import SqrzlEmulator.Mail.SmtpData
import SqrzlEmulator.Oci.Grants
import SqrzlEmulator.Oci.ObjectListing
import SqrzlEmulator.S3.Confidentiality
import SqrzlEmulator.S3.DeleteReferences
import SqrzlEmulator.S3.LifecycleDocuments
import SqrzlEmulator.S3.VersionListing
import SqrzlEmulator.Sms.Pages
import SqrzlEmulator.Storage.Bodies
import SqrzlEmulator.Storage.CrashAtomicity
import SqrzlEmulator.Storage.KeptVersions
import SqrzlEmulator.Storage.MetadataReplacement
